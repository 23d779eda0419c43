import FileProvider.Path.Location

/-!
# Catalogues

A catalogue is a tree kept as the list of its locations, each with what is there. Siblings are listed
in the order of the list: a new location comes last, and one that is put again keeps its place. Two
locations in different directories have no order that anyone can see.
-/

set_option autoImplicit false

namespace FileProvider

/-- The locations of a tree, each with what is there. -/
abbrev Catalogue (ν : Type) : Type := List (Location × ν)

namespace Catalogue

variable {ν : Type}

/-- What is at a location. -/
def find? (c : Catalogue ν) (l : Location) : Option ν := c.lookup l

/-- Whether anything is at a location. -/
def has (c : Catalogue ν) (l : Location) : Bool := (c.find? l).isSome

/-- The names in a directory, each with what is there, in listing order. -/
def children (c : Catalogue ν) (l : Location) : List (String × ν) :=
  c.filterMap fun (k, v) => (l.childName? k).map fun name => (name, v)

/-- Puts something at a location: in place of what is there, or behind everything else. -/
def put (c : Catalogue ν) (l : Location) (v : ν) : Catalogue ν :=
  if c.has l then c.map fun e => if e.1 = l then (l, v) else e else c ++ [(l, v)]

/-- Removes a location. -/
def erase (c : Catalogue ν) (l : Location) : Catalogue ν := c.filter fun e => e.1 ≠ l

/-- Removes a location and everything below it. -/
def eraseTree (c : Catalogue ν) (l : Location) : Catalogue ν := c.filter fun e => !l.isWithin e.1

/-- Where a location ends up when `source` becomes `target`. -/
def rebase (source target l : Location) : Location :=
  match source.below? l with
  | some rest => target ++ rest
  | none => l

/-- Gives `source` and everything below it the place `target`, where it comes last unless something
was there already. -/
def relocate (c : Catalogue ν) (source target : Location) : Catalogue ν :=
  match c.find? source with
  | none => c
  | some v => Catalogue.put ((c.erase source).map fun (k, w) => (rebase source target k, w)) target v

/-- Everything below a location, depth first and as deep as given; `arrange` puts what is in a
directory into order. -/
def walk (c : Catalogue ν) (arrange : List (String × ν) → List (String × ν)) :
    Nat → Location → List (Location × ν)
  | 0, _ => []
  | depth + 1, l => (arrange (c.children l)).flatMap fun (name, v) =>
    (l ++ [name], v) :: c.walk arrange depth (l ++ [name])

end Catalogue

end FileProvider
