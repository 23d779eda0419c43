import FileProvider.Text.Search

/-!
# Segments of URIs and paths

A segment path is a slash, then non-empty segments between single slashes, then possibly one more
slash. The functions here build the URI of a child, name the last segment and replace it; each of
them lets one trailing slash stand outside the last segment.
-/

set_option autoImplicit false

namespace FileProvider.Uri

/-- Whether a text matches `/segment/…/segment`, possibly with one slash more at its end. -/
def isSegmentPath (path : String) : Bool :=
  match path.toList with
  | [] => false
  | c :: rest =>
    let body := Text.chopSlash rest
    c = '/' && !body.isEmpty && (Text.pieces '/' body).all (fun piece => !piece.isEmpty)

/-- The URI of the entry `name` below `parent`; a slash at the end of `parent` is not doubled. -/
def child (parent name : String) : String :=
  if parent.toList.getLast? = some '/' then parent ++ name else parent ++ "/" ++ name

/-- The last segment of a URI or path. -/
def lastSegment (path : String) : String :=
  String.ofList (Text.afterLastSlash (Text.chopSlash path.toList))

/-- Replaces the last segment by `name`, keeping a slash at the end. -/
def renamed (raw name : String) : String :=
  let chars := raw.toList
  let trailing := if chars.getLast? = some '/' then "/" else ""
  String.ofList (Text.throughLastSlash (Text.chopSlash chars)) ++ name ++ trailing

end FileProvider.Uri
