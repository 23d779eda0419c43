import FileProvider.Service.Basic
import FileProvider.Service.Document

/-!
# Listing directories

A listing is the documents of a directory's entries, in listing order, that pass the filter, from a
given offset on and no more than a given count. Entries that can no longer matter are not looked at:
those behind the window, and those before it when there is no filter.
-/

set_option autoImplicit false

namespace FileProvider.Service

variable {σ η : Type}

/-- The document of an entry. -/
def document (b : Backend σ η) (uri : String) (path : Path) (entry : Entry) : Op σ η Document := do
  let stat ← reportAs (b.run (.stat (path.join entry.name)))
  pure (Document.ofStat (Uri.child uri entry.name) entry.name stat)

/-- The part of a listing from `offset` to `stop`, when `position` entries were passed already. -/
def window (b : Backend σ η) (uri : String) (path : Path) (filter : Option Filter)
    (offset stop : Nat) : Nat → List Entry → Op σ η (List Document)
  | _, [] => pure []
  | position, entry :: rest =>
    if stop ≤ position then pure []
    else if filter.isNone && position < offset then
      window b uri path filter offset stop (position + 1) rest
    else do
      let d ← document b uri path entry
      if filter.all (·.accepts d) then
        let more ← window b uri path filter offset stop (position + 1) rest
        pure (if offset ≤ position then d :: more else more)
      else window b uri path filter offset stop position rest

/-- The end of a window: a word of 64 bits. -/
def windowEnd (offset count : Nat) : Nat := min (offset + count) (UInt64.size - 1)

/-- Lists a directory; a filter without criteria does not count as one. -/
def listFiles (b : Backend σ η) (uri : String) (offset count : Nat) (filter : Option Filter) :
    Op σ η (List Document) := do
  check uri
  let path ← pathOf uri
  if !(← passOn (b.run (.stat path))).isDir then
    Run.fail (.invalidOperation (path.text ++ " is not a directory"))
  let entries ← reportAs (b.run (.list path))
  window b uri path (filter.filter Filter.hasCriteria) offset (windowEnd offset count) 0 entries

/-- The document of the entry at a URI. -/
def fileInfo (b : Backend σ η) (uri : String) : Op σ η Document := do
  check uri
  let path ← pathText uri
  let stat ← passOn (b.run (.stat ⟨path⟩))
  pure (Document.ofStat uri (Uri.lastSegment path) stat)

end FileProvider.Service
