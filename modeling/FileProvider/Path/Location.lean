import FileProvider.Path.Basic

/-!
# Locations

A location is the list of names that lead from the root of a tree to an entry. A path has two
readings as a location. `Path.location` makes it absolute and cleans its steps; `Path.confined`
walks its steps below a given root and never leaves it.
-/

set_option autoImplicit false

namespace FileProvider

/-- The names that lead from the root of a tree to an entry. -/
abbrev Location : Type := List String

namespace Location

/-- The absolute path of a location. -/
def path (l : Location) : Path := ⟨.char '/' :: [Sign.char '/'].intercalate (l.map Name.signs)⟩

/-- The path of a location as it is shown. -/
def text (l : Location) : String := l.path.text

/-- The part of `l` below `base`, if `l` is `base` or lies below it. -/
def below? (base l : Location) : Option Location := base.isPrefixOf? l

/-- Whether `l` is `base` or lies below it. -/
def isWithin (base l : Location) : Bool := base.isPrefixOf l

/-- The name of `l` if it is a child of `base`. -/
def childName? (base l : Location) : Option String :=
  match base.isPrefixOf? l with
  | some [name] => some name
  | _ => none

/-- The location of the parent and the last name; the root has neither. -/
def split? (l : Location) : Option (Location × String) :=
  match l.getLast? with
  | some name => some (l.dropLast, name)
  | none => none

end Location

namespace Path

/-- Adds one step to steps that are clean already, the last one first. -/
def cleanStep (done : List Component) : Component → List Component
  | .here => done
  | .up =>
    match done with
    | .root :: _ => done
    | .name _ :: before => before
    | _ => .up :: done
  | step => step :: done

/-- Leaves out the steps that cancel each other; at the root there is no way up. These are the rules by
which the library `path-clean` cleans a path. -/
def clean (steps : List Component) : List Component := (steps.foldl cleanStep []).reverse

/-- The same path, seen from the root if it is relative. -/
def absolute (p : Path) : Path := if p.isAbsolute then p else ⟨.char '/' :: p.signs⟩

/-- The child that a step leads to. -/
def Component.name? : Component → Option String
  | .name s => some s
  | _ => none

/-- The location that a path names in a tree of its own. -/
def location (p : Path) : Location := (clean p.absolute.components).filterMap Component.name?

/-- Follows one step below a root, the last name first. -/
def confinedStep (names : List String) : Component → List String
  | .name s => s :: names
  | .up => names.drop 1
  | _ => names

/-- The location that a path names below a root which it cannot leave. -/
def confined (p : Path) : Location := (p.components.foldl confinedStep []).reverse

end Path

end FileProvider
