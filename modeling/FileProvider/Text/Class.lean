/-!
# Character classes

Two classes of characters that no URI may contain: white space, which is the Unicode property
`White_Space`, and controls, which is the general category `Cc`.
-/

set_option autoImplicit false

namespace FileProvider.Text

/-- Whether one of the closed ranges of code points contains `c`. -/
def inRanges (ranges : List (Nat × Nat)) (c : Char) : Bool :=
  ranges.any fun (low, high) => low ≤ c.toNat && c.toNat ≤ high

/-- The code points of the property `White_Space`. -/
def blankRanges : List (Nat × Nat) :=
  [(0x09, 0x0D), (0x20, 0x20), (0x85, 0x85), (0xA0, 0xA0), (0x1680, 0x1680), (0x2000, 0x200A),
    (0x2028, 0x2029), (0x202F, 0x202F), (0x205F, 0x205F), (0x3000, 0x3000)]

/-- Whether a character is white space. -/
def isBlank (c : Char) : Bool := inRanges blankRanges c

/-- The code points of the category `Cc`. -/
def controlRanges : List (Nat × Nat) := [(0x00, 0x1F), (0x7F, 0x9F)]

/-- Whether a character is a control. -/
def isControl (c : Char) : Bool := inRanges controlRanges c

end FileProvider.Text
