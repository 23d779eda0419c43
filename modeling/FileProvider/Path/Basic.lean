import FileProvider.Path.Name

/-!
# Paths

A path is kept as its caller wrote it, because messages and logs show it that way, with a replacement
character for bytes that spell none. `components` is what it means step by step: repeated slashes and
inner single dots mean nothing.
-/

set_option autoImplicit false

namespace FileProvider

/-- A path as its caller wrote it. -/
structure Path where
  signs : List Sign
deriving DecidableEq, Repr, Inhabited

namespace Path

/-- The path that a text writes. -/
def ofText (s : String) : Path := ⟨s⟩

/-- A path as it is shown. -/
def text (p : Path) : String := String.ofList (p.signs.map Sign.shown)

/-- The text of a path, if the path is text. -/
def text? (p : Path) : Option String := (p.signs.mapM Sign.char?).map String.ofList

/-- How many bytes a path takes. -/
def size (p : Path) : Nat := Sign.sizes p.signs

/-- One step of a path. -/
inductive Component where
  /-- To the root; only as the first step. -/
  | root
  /-- Nowhere; only as the first step. -/
  | here
  /-- To the parent. -/
  | up
  /-- To the child of that name. -/
  | name (s : String)
deriving DecidableEq, Repr, Inhabited

/-- Whether a path starts at the root. -/
def isAbsolute (p : Path) : Bool := p.signs.head? = some (.char '/')

/-- The path `tail` as seen from `p`: an absolute one replaces `p`. -/
def join (p : Path) (tail : String) : Path :=
  if tail.toList.head? = some '/' then ⟨tail⟩
  else if p.signs.isEmpty || p.signs.getLast? = some (.char '/') then ⟨p.signs ++ Sign.ofText tail⟩
  else ⟨p.signs ++ .char '/' :: Sign.ofText tail⟩

/-- The step that one piece between slashes means, if any. -/
def Component.ofPiece? (piece : List Char) : Option Component :=
  if piece = [] || piece = ['.'] then none
  else if piece = ['.', '.'] then some .up
  else some (.name (String.ofList piece))

/-- The steps that the pieces between slashes mean. -/
def steps (signs : List Sign) : List Component :=
  (Text.pieces (.char '/') signs).filterMap fun piece => Component.ofPiece? (Name.ofSigns piece)

/-- Where a path starts, if it says so. -/
def start (p : Path) : List Component :=
  if p.isAbsolute then [.root]
  else if (Text.pieces (.char '/') p.signs).head? = some [.char '.'] then [.here]
  else []

/-- The steps of a path. -/
def components (p : Path) : List Component := p.start ++ steps p.signs

end Path

end FileProvider
