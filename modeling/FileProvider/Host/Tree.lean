import FileProvider.Catalogue
import FileProvider.Fs.Backend

/-!
# The host's tree

The host keeps files, directories and symbolic links in one tree; the content of a file is kept under
a number of its own, because a file that is open outlives its name, and because one file may have several
names. The tree may span several devices. `Host.walk` finds the place that a location leads to: a link on
the way is followed, the last one only if the caller wants that, and after forty links the walk is given
up. Whoever walks may do everything: there are no permissions.
-/

set_option autoImplicit false

namespace FileProvider

/-- What is at a location of the host. -/
inductive HostNode where
  /-- A file, by the number of its content. -/
  | file (id : Nat)
  | dir
  | link (target : Path)
deriving DecidableEq, Repr, Inhabited

namespace HostNode

/-- What the node is. -/
def kind : HostNode → FileKind
  | .file _ => .file
  | .dir => .directory
  | .link _ => .symlink

/-- Whether it is a directory. -/
def isDir : HostNode → Bool
  | .dir => true
  | _ => false

end HostNode

/-- The host's tree and the contents of its files. -/
structure Host where
  entries : Catalogue HostNode
  /-- The contents under their numbers. -/
  contents : List (Nat × Bytes)
  nextId : Nat
  /-- The directories at which devices are mounted, besides the root. -/
  mounts : List Location
deriving Repr

namespace Host

/-- The host that holds only its root. -/
def empty : Host := ⟨[([], .dir)], [], 0, []⟩

/-- What is at a location, no link being followed. -/
def find? (h : Host) (l : Location) : Option HostNode := h.entries.find? l

/-- A content. -/
def content (h : Host) (id : Nat) : Bytes := (h.contents.lookup id).getD []

/-- The stat record of a file with a given content or of a directory. -/
def statOf (h : Host) : Option Nat → Stat
  | some id => ⟨.file, .ofNat (h.content id).length, 0o100644, 0, 0, 0, 0, 0, 0⟩
  | none => ⟨.directory, 0, 0o040755, 0, 0, 0, 0, 0, 0⟩

/-- Whether a device is mounted at a location. -/
def isMount (h : Host) (l : Location) : Bool := l.isEmpty || h.mounts.contains l

/-- The device that a location is on, given as the mounted directories on the way to it. -/
def device (h : Host) (l : Location) : List Location := h.mounts.filter fun m => m.isWithin l

/-- How long a name may be, in bytes. -/
def nameLimit : Nat := 255

/-- How long a path may be, in bytes. -/
def pathLimit : Nat := 4095

/-- How many links a walk follows. -/
def linkLimit : Nat := 40

/-- A place in the tree: the location that was reached and what is there. Its parent is a
directory. -/
abbrev Place : Type := Location × Option HostNode

/-- How a walk treats the last name of its path. -/
inductive Ending where
  /-- A link is not followed. -/
  | kept
  /-- A link is followed. -/
  | followed
  /-- A link is followed, and a slash behind the last name is refused: what may have to be created
  there is no directory. -/
  | created
deriving DecidableEq, Repr

/-- Where a link leads to from its directory, and by which steps; a slash at the end is an empty last
step. -/
def linkSteps (here : Location) (target : Path) : Location × List String :=
  let steps := (Text.pieces (.char '/') target.signs).filterMap fun piece =>
    if piece = [] then none else some (String.ofList (Name.ofSigns piece))
  let last := if target.signs.getLast? = some (.char '/') then [""] else []
  (if target.isAbsolute then [] else here, steps ++ last)

/-- Walks on from a location by steps, handing every link that is followed to `onLink`. -/
def walkFrom (h : Host) (ending : Ending)
    (onLink : Location → List String → Except IoError Place) (here : Location) :
    List String → Except IoError Place
  | [] => .ok (here, h.find? here)
  | step :: rest =>
    match h.find? here with
    | some .dir =>
      if step = "." || step = "" then h.walkFrom ending onLink here rest
      else if step = ".." then h.walkFrom ending onLink here.dropLast rest
      else if ending = .created && rest = [""] then .error (.os Errno.isADirectory)
      else if nameLimit < Name.size step then .error (.os Errno.nameTooLong)
      else
        let next := here ++ [step]
        match h.find? next with
        | none => if rest = [] then .ok (next, none) else .error (.os Errno.noEntry)
        | some (.link target) =>
          if rest = [] && ending = .kept then .ok (next, some (.link target))
          else
            let (start, steps) := linkSteps here target
            onLink start (steps ++ rest)
        | some _ => h.walkFrom ending onLink next rest
    | _ => .error (.os Errno.notADirectory)

/-- Walks on from a location by steps, following at most so many links. -/
def walk (h : Host) (ending : Ending) : Nat → Location → List String → Except IoError Place
  | 0 => h.walkFrom ending fun _ _ => .error (.os Errno.tooManyLinks)
  | links + 1 => h.walkFrom ending (h.walk ending links)

/-- Refuses a location that cannot be handed to the system: one with a name that holds a null
character. -/
def spellable (l : Location) : Except IoError Unit :=
  if l.any fun name => name.toList.contains '\x00' then
    .error (.custom .invalidInput "file name contained an unexpected NUL byte")
  else .ok ()

/-- Refuses a location that cannot even be asked for: one that cannot be handed to the system, or one
whose path is too long. -/
def askable (l : Location) : Except IoError Unit := do
  spellable l
  if pathLimit < l.path.size then .error (.os Errno.nameTooLong)
  else .ok ()

/-- The place that a location leads to. -/
def resolve (h : Host) (ending : Ending) (l : Location) : Except IoError Place := do
  askable l
  h.walk ending linkLimit [] l

end Host

end FileProvider
