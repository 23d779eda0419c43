/-!
# Contents of files

A content is a list of bytes. Writing into it at a position beyond its end fills the gap with zeros.
-/

set_option autoImplicit false

namespace FileProvider

/-- The content of a file. -/
abbrev Bytes : Type := List UInt8

/-- Content with `new` written over it at a position; what lies between the old end and the position
is filled with zeros. -/
def Bytes.splice (old : Bytes) (position : Nat) (new : Bytes) : Bytes :=
  (old ++ List.replicate (position - old.length) 0).take position ++ new
    ++ old.drop (position + new.length)

end FileProvider
