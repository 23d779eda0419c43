/-!
# JSON values and reading records from them

A JSON value keeps the fields of an object in the order in which they are read, and of a number
that is no integer only that it is one. Readers of records are built from `record`, `required` and
`optional`, which accept what the code does that the library `serde` derives for a record, run by
`serde_json`: a record may come as an object or, by position, as an array; fields that are not declared are
passed over unless the record denies them; and a field without a default must be there.
-/

set_option autoImplicit false

namespace FileProvider

/-- A JSON value. -/
inductive Json where
  | null
  | bool (b : Bool)
  | int (i : Int)
  /-- A number written with a fraction; no record has a place for one. -/
  | fraction
  | str (s : String)
  | arr (items : List Json)
  /-- An object, its fields in reading order. -/
  | obj (fields : List (String × Json))
deriving Repr, Inhabited

namespace Json

/-- Why a value is not accepted as a record. -/
inductive Fault where
  /-- It has the wrong form. -/
  | malformed
  /-- It has the right form, but a rule of the record refuses it for this reason. -/
  | refused (reason : String)
deriving DecidableEq, Repr, Inhabited

/-- The result of reading a value of type `α`. -/
abbrev Read (α : Type) : Type := Except Fault α

def string : Json → Read String
  | .str s => .ok s
  | _ => .error .malformed

def boolean : Json → Read Bool
  | .bool b => .ok b
  | _ => .error .malformed

/-- Reads an integer between two bounds, both included. -/
def between (low high : Int) : Json → Read Int
  | .int i => if low ≤ i ∧ i ≤ high then .ok i else .error .malformed
  | _ => .error .malformed

/-- Reads an unsigned word of 32 bits. -/
def word32 (j : Json) : Read UInt32 :=
  (between 0 (UInt32.size - 1) j).map fun i => UInt32.ofNat i.toNat

/-- Reads an unsigned word of 64 bits. -/
def word64 (j : Json) : Read UInt64 :=
  (between 0 (UInt64.size - 1) j).map fun i => UInt64.ofNat i.toNat

/-- Reads a signed word of 32 bits. -/
def signed32 (j : Json) : Read Int32 :=
  (between (-0x80000000) 0x7fffffff j).map Int32.ofInt

/-- Reads a string of one character. -/
def char (j : Json) : Read Char := do
  match (← string j).toList with
  | [c] => .ok c
  | _ => .error .malformed

/-- Reads an array of values. -/
def list {α : Type} (read : Json → Read α) : Json → Read (List α)
  | .arr items => items.mapM read
  | _ => .error .malformed

/-- Writes an unsigned word of 32 bits. -/
def ofWord32 (w : UInt32) : Json := .int w.toNat

/-- Writes an unsigned word of 64 bits. -/
def ofWord64 (w : UInt64) : Json := .int w.toNat

/-- Writes a signed word of 32 bits. -/
def ofSigned32 (w : Int32) : Json := .int w.toInt

/-- Writes an array of strings. -/
def ofStrings (ss : List String) : Json := .arr (ss.map .str)

/-- The name of a constant: a string, or an object whose only field has that name and holds
`null`. -/
def constant : Json → Read String
  | .str s => .ok s
  | .obj [(s, .null)] => .ok s
  | _ => .error .malformed

/-- The name of a constant in content that was set aside until its tag was known; there an empty object
does for `null`. -/
def heldConstant : Json → Read String
  | .obj [(s, .obj [])] => .ok s
  | j => constant j

/-- Reads a record whose fields are declared in the given order: the fields of an object, or those of
an array by position. A strict record, one that `serde` derives with `deny_unknown_fields`, admits no
other fields. Items behind the last field of an array are refused too, but only when the fields themselves
are read. -/
def record {α : Type} (declared : List String) (strict : Bool)
    (read : List (String × Json) → Read α) : Json → Read α
  | .obj fields =>
    if strict && fields.any (fun field => !declared.contains field.1) then .error .malformed
    else read fields
  | .arr items => do
    let result ← read (declared.zip items)
    if items.length ≤ declared.length then .ok result else .error .malformed
  | _ => .error .malformed

/-- Reads a field that must be present. -/
def required {α : Type} (fields : List (String × Json)) (key : String) (read : Json → Read α) :
    Read α :=
  match fields.lookup key with
  | some value => read value
  | none => .error .malformed

/-- Reads a field that may be absent. -/
def optional {α : Type} (fields : List (String × Json)) (key : String) (read : Json → Read α)
    (absent : α) : Read α :=
  match fields.lookup key with
  | some value => read value
  | none => .ok absent

/-- Reads a value that carries its tag and its content in two fields, as `serde` reads one that is tagged
adjacently; other fields do not matter. As an array it has exactly these two items, of which a third one is
refused after they are read. The tag is read by `readTag`. -/
def tagged {α : Type} (readTag : Json → Read String) (tag content : String)
    (read : String → Option Json → Read α) : Json → Read α
  | .obj fields => do
    let name ← required fields tag readTag
    read name (fields.lookup content)
  | .arr (first :: second :: surplus) => do
    let name ← readTag first
    let result ← read name (some second)
    if surplus.isEmpty then .ok result else .error .malformed
  | _ => .error .malformed

/-- How a tag inside the content of a tagged value is read: an object sets its content aside until its
own tag is known, an array gives its tag first. -/
def innerTag : Json → Json → Read String
  | .obj _ => heldConstant
  | _ => constant

/-- Reads content that must be present. -/
def content {α : Type} (read : Json → Read α) : Option Json → Read α
  | some value => read value
  | none => .error .malformed

/-- Reads the content of a tag that takes none: it is absent or `null`. -/
def noContent {α : Type} (result : α) : Option Json → Read α
  | none => .ok result
  | some .null => .ok result
  | some _ => .error .malformed

end Json

end FileProvider
