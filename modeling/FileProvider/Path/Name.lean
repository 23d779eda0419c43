import FileProvider.Fs.Bytes
import FileProvider.Text.Search

/-!
# Names

The host's paths are bytes, and nothing makes them spell characters. What a path is written with is
therefore a `Sign`: a character, or a run of bytes that spells none. The name of an entry is kept as a
text all the same. A run of bytes stands in it between two slashes, each byte as a character of its own;
since no name holds a slash, a name that is text is kept as it is, and no two names become one.
-/

set_option autoImplicit false

namespace FileProvider

/-- One sign of a path. -/
inductive Sign where
  | char (c : Char)
  /-- Bytes that spell no character, as many as are passed over at once. -/
  | stray (run : Bytes)
deriving DecidableEq, Repr, Inhabited

namespace Sign

/-- The signs of a text. -/
def ofText (s : String) : List Sign := s.toList.map .char

instance : Coe String (List Sign) := ⟨ofText⟩

/-- The character that is shown for a sign. -/
def shown : Sign → Char
  | .char c => c
  | .stray _ => '\uFFFD'

/-- The character of a sign, if it is one. -/
def char? : Sign → Option Char
  | .char c => some c
  | .stray _ => none

/-- How many bytes a sign takes. -/
def size : Sign → Nat
  | .char c => c.utf8Size
  | .stray run => run.length

/-- How many bytes some signs take together. -/
def sizes (signs : List Sign) : Nat := signs.foldl (fun n sign => n + sign.size) 0

end Sign

namespace Name

/-- The character that stands for a byte in a name. -/
def charOfByte (b : UInt8) : Char := Char.ofNat (b.toNat + 256)

/-- The byte for which a character stands in a name. -/
def byteOfChar (c : Char) : UInt8 := UInt8.ofNat (c.toNat - 256)

/-- What stands for a sign in a name. -/
def spell : Sign → List Char
  | .char c => [c]
  | .stray run => '/' :: (run.map charOfByte ++ ['/'])

/-- What stands in a name for the signs between two slashes of a path. -/
def ofSigns (piece : List Sign) : List Char := piece.flatMap spell

/-- The signs behind the pieces of a name: text and runs of bytes take turns. -/
def signsOfPieces : List (List Char) → List Sign
  | [] => []
  | [text] => text.map .char
  | text :: run :: rest => text.map .char ++ .stray (run.map byteOfChar) :: signsOfPieces rest

/-- The signs of a name. -/
def signs (name : String) : List Sign := signsOfPieces (Text.pieces '/' name.toList)

/-- Whether a name is text. -/
def isText (name : String) : Bool := !name.toList.contains '/'

/-- How many bytes a name takes. -/
def size (name : String) : Nat := Sign.sizes (signs name)

end Name

end FileProvider
