import FileProvider.Uri.Segments
import FileProvider.Uri.Strict

/-!
# Which URIs address entries, and at which path

A provider answers to two schemes: any `file` URI, and a `datashare` URI whose remainder is a
segment path. `pathOf` is the path such a URI addresses: the scheme, the authority, the first
segment that names the application bundle and one trailing slash are left out.
-/

set_option autoImplicit false

namespace FileProvider.Uri

/-- The scheme of plain files. -/
def fileScheme : String := "file"

/-- The scheme of the provider itself. -/
def providerScheme : String := "datashare"

/-- The bundle that owns the entries unless another one is configured. -/
def defaultBundle : String := "com.ohos.UserFile.ExternalFileManager"

/-- Whether the provider answers to a URI at all. -/
def isAddress (raw : String) : Bool :=
  match parse raw with
  | .error _ => false
  | .ok u => u.scheme = fileScheme || (u.scheme = providerScheme && isSegmentPath u.remainder)

/-- Leaves out the first whole segment `name`, together with the slash before it. -/
def withoutSegment (name : String) (path : List Char) : List Char :=
  if name.isEmpty then path else Text.dropSegment ('/' :: name.toList) path

/-- The path that a URI addresses for the owner `bundle`; a text without a scheme is a path. -/
def pathOf (bundle raw : String) : String :=
  match split? raw with
  | none => raw
  | some u => String.ofList (Text.chopSlash (withoutSegment bundle u.path.toList))

/-- The provider URI of a path. -/
def ofPath (path : String) : String := providerScheme ++ separator ++ path

end FileProvider.Uri
