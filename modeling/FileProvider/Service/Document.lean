import FileProvider.Fs.Stat

/-!
# Documents and filters on them

A document is what a listing says about one entry. A filter narrows a listing: a document passes if
it meets every criterion that the filter states, and directories need not meet those on suffix and
size, so that a filtered listing can still be walked.
-/

set_option autoImplicit false

namespace FileProvider

/-- What a listing says about one entry. -/
structure Document where
  /-- The URI of the entry. -/
  uri : String
  /-- Its name. -/
  fileName : String
  /-- What it is and what can be done with it, one bit each. -/
  mode : UInt32
  /-- Its size in bytes. -/
  size : UInt64
  /-- When it last changed, in seconds from the epoch. -/
  mtime : UInt64
  /-- Its media type, which is never determined. -/
  mimeType : String
deriving DecidableEq, Repr, Inhabited

namespace Document

/-- The bit of a document that is a file. -/
def fileBit : UInt32 := 0x1

/-- The bit of a document that is a directory. -/
def dirBit : UInt32 := 0x2

/-- The bits of a document that can be read and written. -/
def accessBits : UInt32 := 0x4 ||| 0x8

/-- The document that says nothing. -/
def empty : Document := ⟨"", "", 0, 0, 0, ""⟩

/-- The document of an entry with a given stat record. -/
def ofStat (uri name : String) (stat : Stat) : Document where
  uri := uri
  fileName := name
  mode := accessBits ||| (if stat.isDir then dirBit else fileBit)
  size := stat.size
  mtime := UInt64.ofNat stat.modified.seconds
  mimeType := ""

/-- Whether a document is a directory. -/
def isDir (d : Document) : Bool := d.mode &&& dirBit != 0

def toJson (d : Document) : Json :=
  .obj [("file_name", .str d.fileName), ("mime_type", .str d.mimeType), ("mode", .ofWord32 d.mode),
    ("mtime", .ofWord64 d.mtime), ("size", .ofWord64 d.size), ("uri", .str d.uri)]

/-- The fields of a document in declared order. -/
def declared : List String := ["uri", "file_name", "mode", "size", "mtime", "mime_type"]

def ofJson (j : Json) : Json.Read Document :=
  j.record declared false fun fields => do
    let uri ← Json.required fields "uri" Json.string
    let fileName ← Json.required fields "file_name" Json.string
    let mode ← Json.required fields "mode" Json.word32
    let size ← Json.required fields "size" Json.word64
    let mtime ← Json.required fields "mtime" Json.word64
    let mimeType ← Json.required fields "mime_type" Json.string
    .ok ⟨uri, fileName, mode, size, mtime, mimeType⟩

end Document

/-- What a listing is narrowed to. -/
structure Filter where
  /-- The suffixes that are accepted; none means all. -/
  suffixes : List String := []
  /-- The names that are accepted; none means all. -/
  displayNames : List String := []
  /-- The least size of a file. -/
  minSize : UInt64 := 0
  /-- Whether names that start with a dot are left out. -/
  excludeHidden : Bool := false
deriving DecidableEq, Repr, Inhabited

namespace Filter

/-- Whether a filter states any criterion. -/
def hasCriteria (f : Filter) : Bool :=
  !f.suffixes.isEmpty || !f.displayNames.isEmpty || f.minSize != 0 || f.excludeHidden

/-- Whether one text ends with another. -/
def endsWith (name suffix : String) : Bool := suffix.toList.isSuffixOf name.toList

/-- Whether a document passes. -/
def accepts (f : Filter) (d : Document) : Bool :=
  !(f.excludeHidden && d.fileName.toList.head? = some '.')
    && (f.displayNames.isEmpty || f.displayNames.contains d.fileName)
    && (d.isDir
      || ((f.suffixes.isEmpty || f.suffixes.any (endsWith d.fileName)) && f.minSize ≤ d.size))

/-- Writes a filter; criteria that are not stated do not appear. -/
def toJson (f : Filter) : Json :=
  let hidden := if f.excludeHidden then [("exclude_hidden", Json.bool true)] else []
  let names :=
    if f.displayNames.isEmpty then [] else [("display_names", Json.ofStrings f.displayNames)]
  let size := if f.minSize = 0 then [] else [("min_size", Json.ofWord64 f.minSize)]
  let suffixes := if f.suffixes.isEmpty then [] else [("suffixes", Json.ofStrings f.suffixes)]
  .obj (names ++ hidden ++ size ++ suffixes)

/-- The fields of a filter in declared order. -/
def declared : List String := ["suffixes", "display_names", "min_size", "exclude_hidden"]

def ofJson (j : Json) : Json.Read Filter :=
  j.record declared false fun fields => do
    let suffixes ← Json.optional fields "suffixes" (Json.list Json.string) []
    let displayNames ← Json.optional fields "display_names" (Json.list Json.string) []
    let minSize ← Json.optional fields "min_size" Json.word64 0
    let excludeHidden ← Json.optional fields "exclude_hidden" Json.boolean false
    .ok ⟨suffixes, displayNames, minSize, excludeHidden⟩

end Filter

end FileProvider
