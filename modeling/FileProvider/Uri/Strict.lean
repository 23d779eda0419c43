import FileProvider.Text.Class
import FileProvider.Text.Quoted
import FileProvider.Uri.Basic

/-!
# Strict reading of URIs

`Uri.parse` accepts a text as a URI only if it holds no white space and no control, has a separator,
and its scheme is a letter followed by letters, digits, `+`, `-` and `.`. Illegal characters are
looked for before anything else.
-/

set_option autoImplicit false

namespace FileProvider

namespace Uri

/-- Why a text is refused as a URI. -/
inductive Fault where
  | missingScheme
  | invalidScheme (scheme : String)
  | illegalCharacter (c : Char)
deriving DecidableEq, Repr, Inhabited

def Fault.message : Fault → String
  | .missingScheme => "missing scheme separator"
  | .invalidScheme scheme => "invalid scheme: " ++ Text.quote scheme
  | .illegalCharacter c => "illegal character " ++ Text.quoteChar c ++ " in uri"

def isLetter (c : Char) : Bool := ('a' ≤ c && c ≤ 'z') || ('A' ≤ c && c ≤ 'Z')

/-- Whether a character may follow the first one of a scheme. -/
def isSchemeChar (c : Char) : Bool :=
  isLetter c || ('0' ≤ c && c ≤ '9') || c = '+' || c = '-' || c = '.'

/-- Whether a text is a scheme. -/
def isScheme : List Char → Bool
  | [] => false
  | c :: rest => isLetter c && rest.all isSchemeChar

/-- Whether a character may stand nowhere in a URI. -/
def isIllegal (c : Char) : Bool := Text.isBlank c || Text.isControl c

/-- Reads a URI, or says why the text is none. -/
def parse (raw : String) : Except Fault Uri :=
  match raw.toList.find? isIllegal with
  | some c => .error (.illegalCharacter c)
  | none =>
    match split? raw with
    | none => .error .missingScheme
    | some u => if isScheme u.scheme.toList then .ok u else .error (.invalidScheme u.scheme)

end Uri

end FileProvider
