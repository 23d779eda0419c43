import FileProvider.Text.Printable

/-!
# Quoted texts in messages

An error message shows a foreign text between quotation marks, with every character visible: the
mark itself and the backslash are escaped, four controls have escapes of one letter, and any other
character without a shape of its own is written as its code point.
-/

set_option autoImplicit false

namespace FileProvider.Text

/-- Lower-case hexadecimal digits without leading zeros. -/
def hexDigits (n : Nat) : List Char := Nat.toDigits 16 n

/-- One character as a quotation bounded by `mark` shows it. -/
def escapeChar (mark : Char) (c : Char) : List Char :=
  if c = '\x00' then ['\\', '0']
  else if c = '\t' then ['\\', 't']
  else if c = '\r' then ['\\', 'r']
  else if c = '\n' then ['\\', 'n']
  else if c = mark || c = '\\' then ['\\', c]
  else if extendsGrapheme c || !isPrintable c then
    ['\\', 'u', '\x7b'] ++ hexDigits c.toNat ++ ['\x7d']
  else [c]

/-- A text between two copies of `mark`. -/
def quoteBetween (mark : Char) (s : List Char) : String :=
  String.ofList (mark :: s.flatMap (escapeChar mark) ++ [mark])

/-- A text between double quotation marks. -/
def quote (s : String) : String := quoteBetween '"' s.toList

/-- A character between single quotation marks. -/
def quoteChar (c : Char) : String := quoteBetween '\x27' [c]

end FileProvider.Text
