import FileProvider.Fs.Error
import FileProvider.Run

/-!
# Descriptors of open files

A table gives every open file a descriptor. Descriptors are handed out in increasing order, the
first three numbers being left to the standard streams, and none is handed out twice; a full table
refuses the next file without using up a descriptor.
-/

set_option autoImplicit false

namespace FileProvider

/-- The number by which a caller names an open file. -/
abbrev Descriptor : Type := Int32

/-- Open files of type `η` under their descriptors. -/
structure Descriptors (η : Type) where
  /-- The descriptor of the next file. -/
  next : Descriptor
  /-- The files, the one opened first at the head. -/
  files : List (Descriptor × η)
deriving Repr

namespace Descriptors

variable {η : Type}

/-- The first descriptor. -/
def first : Descriptor := 3

/-- How many files may be open at once. -/
def capacity : Nat := 1024

/-- The table without files. -/
def empty : Descriptors η := ⟨first, []⟩

/-- How many files are open. -/
def size (t : Descriptors η) : Nat := t.files.length

/-- The file with a descriptor. -/
def find? (t : Descriptors η) (fd : Descriptor) : Option η := t.files.lookup fd

/-- Whether a descriptor belongs to an open file. -/
def has (t : Descriptors η) (fd : Descriptor) : Bool := (t.find? fd).isSome

/-- Takes in a file and hands out its descriptor, unless the table is full. -/
def insert (t : Descriptors η) (file : η) : Except FsError (Descriptor × Descriptors η) :=
  if capacity ≤ t.size then .error (.io "too many open files")
  else .ok (t.next, ⟨t.next + 1, t.files ++ [(t.next, file)]⟩)

/-- Puts another file under a descriptor that is in use. -/
def replace (t : Descriptors η) (fd : Descriptor) (file : η) : Descriptors η :=
  { t with files := t.files.map fun e => if e.1 = fd then (fd, file) else e }

/-- Gives back a descriptor. -/
def erase (t : Descriptors η) (fd : Descriptor) : Descriptors η :=
  { t with files := t.files.filter fun e => e.1 ≠ fd }

end Descriptors

end FileProvider
