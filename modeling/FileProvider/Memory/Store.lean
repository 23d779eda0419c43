import FileProvider.Catalogue
import FileProvider.Fs.Backend

/-!
# A filesystem in memory

The store keeps its tree twice: as a catalogue of what is where, and as the names that each directory
lists. `Store.attach` and `Store.detach` change the second without the first, so every operation that
adds, removes or moves a node has to call them itself. Every operation checks all that can go wrong
before it changes anything, and names in its failures the location, not the path that led to it.
-/

set_option autoImplicit false

namespace FileProvider.Memory

inductive Node where
  | file (ino : Nat) (data : Bytes)
  /-- A directory with the names of its entries, in the order in which they came. -/
  | dir (ino : Nat) (names : List String)
deriving DecidableEq, Repr, Inhabited

namespace Node

def ino : Node → Nat
  | .file ino _ => ino
  | .dir ino _ => ino

def isDir : Node → Bool
  | .file _ _ => false
  | .dir _ _ => true

def kind : Node → FileKind
  | .file _ _ => .file
  | .dir _ _ => .directory

/-- The stat record; a store keeps no dates. -/
def stat : Node → Stat
  | .file ino data => ⟨.file, .ofNat data.length, 0o100644, .ofNat ino, 0, 0, 0, 0, 0⟩
  | .dir ino _ => ⟨.directory, 0, 0o040755, .ofNat ino, 0, 0, 0, 0, 0⟩

/-- The names that a directory lists; a file lists none. -/
def names : Node → List String
  | .file _ _ => []
  | .dir _ names => names

/-- The node with a name behind its others, unless it lists the name already. -/
def attach (name : String) : Node → Node
  | .file ino data => .file ino data
  | .dir ino names => .dir ino (if name ∈ names then names else names ++ [name])

/-- The node without a name. -/
def detach (name : String) : Node → Node
  | .file ino data => .file ino data
  | .dir ino names => .dir ino (names.filter (· ≠ name))

end Node

/-- A filesystem in memory. -/
structure Store where
  entries : Catalogue Node
  nextIno : Nat
deriving DecidableEq, Repr

/-- One line of the listing of a whole tree. -/
inductive TreeLine where
  | file (ino : Nat) (data : Bytes)
  | dir (ino : Nat)
deriving DecidableEq, Repr

/-- The line that shows a node. -/
def Node.line : Node → TreeLine
  | .file ino data => .file ino data
  | .dir ino _ => .dir ino

namespace Store

/-- The store that holds only the root. -/
def empty : Store := ⟨[([], .dir 1 [])], 2⟩

def find? (s : Store) (l : Location) : Option Node := s.entries.find? l

/-- The names that are listed at a location: none unless it is a directory. -/
def names (s : Store) (l : Location) : List String := ((s.find? l).map Node.names).getD []

/-- Everything below a location, depth first, in listing order and as deep as given. -/
def walk (s : Store) : Nat → Location → List (Location × TreeLine)
  | 0, _ => []
  | depth + 1, l => (s.names l).flatMap fun name =>
    match s.find? (l ++ [name]) with
    | some node => (l ++ [name], node.line) :: s.walk depth (l ++ [name])
    | none => []

/-- Everything below the root. -/
def tree (s : Store) : List (Location × TreeLine) := s.walk s.entries.length []

/-- The store with a node at a location. -/
def put (s : Store) (l : Location) (node : Node) : Store :=
  { s with entries := s.entries.put l node }

/-- The store with nothing at a location. -/
def erase (s : Store) (l : Location) : Store := { s with entries := s.entries.erase l }

/-- The store in which the node at a location, if there is one, was changed. -/
def adjust (s : Store) (l : Location) (f : Node → Node) : Store :=
  match s.find? l with
  | some node => s.put l (f node)
  | none => s

/-- Makes a directory list a name. -/
def attach (s : Store) (parent : Location) (name : String) : Store :=
  s.adjust parent (Node.attach name)

/-- Makes a directory list a name no longer. -/
def detach (s : Store) (parent : Location) (name : String) : Store :=
  s.adjust parent (Node.detach name)

/-- The store after a new node, made from its inode number, came into a directory. -/
def add (s : Store) (parent : Location) (name : String) (node : Nat → Node) : Store :=
  { (s.put (parent ++ [name]) (node s.nextIno)).attach parent name with nextIno := s.nextIno + 1 }

/-- The store after a node left its directory. -/
def remove (s : Store) (parent : Location) (name : String) : Store :=
  (s.erase (parent ++ [name])).detach parent name

/-- Every location that is `l` or lies below it. -/
def within (s : Store) (l : Location) : List Location :=
  (s.entries.map Prod.fst).filter fun k => l.isWithin k

/-- Moves the node at one location to the place it has when `source` becomes `target`. -/
def moveNode (source target : Location) (s : Store) (l : Location) : Store :=
  match s.find? l with
  | some node => (s.erase l).put (Catalogue.rebase source target l) node
  | none => s

/-- Moves the nodes at the given locations one by one. -/
def moveNodes (s : Store) (source target : Location) (order : List Location) : Store :=
  order.foldl (moveNode source target) s

end Store

abbrev Op (α : Type) : Type := Step Store FsError α

def look (l : Location) : Op (Option Node) := fun s => .ok (s.find? l) s

/-- The directory that holds a location, and its name there; the root is held by none, and a name has to
be text. -/
def parentOf (l : Location) : Op (Location × String) :=
  match l.split? with
  | some (parent, name) =>
    if Name.isText name then pure (parent, name)
    else throw (.invalidPath ("invalid name: " ++ l.text))
  | none => throw (.invalidPath "root has no parent")

/-- The names that the directory at a location lists. -/
def namesOf (l : Location) : Op (List String) := do
  match ← look l with
  | some (.dir _ names) => pure names
  | some (.file _ _) => throw (.notADirectory l.text)
  | none => throw (.notFound l.text)

/-- Checks that a location is a directory. -/
def requireDir (l : Location) : Op Unit := do
  let _ ← namesOf l

/-- The directory into which a location comes as an entry, and its name there. -/
def holderOf (l : Location) : Op (Location × String) := do
  let (parent, name) ← parentOf l
  requireDir parent
  pure (parent, name)

/-- The content of a file. -/
def read (l : Location) : Op Bytes := do
  match ← look l with
  | some (.file _ data) => pure data
  | some (.dir _ _) => throw (.isADirectory l.text)
  | none => throw (.notFound l.text)

/-- Replaces the content of a file, or creates the file with it. -/
def write (l : Location) (data : Bytes) : Op Unit := do
  let (parent, name) ← holderOf l
  match ← look l with
  | some (.dir _ _) => throw (.isADirectory l.text)
  | some (.file ino _) => modify (·.put l (.file ino data))
  | none => modify (·.add parent name fun ino => .file ino data)

def delete (l : Location) : Op Unit := do
  match ← look l with
  | some (.dir _ _) => throw (.isADirectory l.text)
  | some (.file _ _) =>
    let (parent, name) ← parentOf l
    modify (·.remove parent name)
  | none => throw (.notFound l.text)

def stat (l : Location) : Op Stat := do
  match ← look l with
  | some node => pure node.stat
  | none => throw (.notFound l.text)

/-- The entries of a directory; a name at which nothing is found is passed over. -/
def list (l : Location) : Op (List Entry) := do
  let names ← namesOf l
  let s ← get
  pure (names.filterMap fun name => (s.find? (l ++ [name])).map fun node => ⟨name, node.kind⟩)

def createDir (l : Location) : Op Unit := do
  if (← look l).isSome then throw (.alreadyExists l.text)
  let (parent, name) ← holderOf l
  modify (·.add parent name fun ino => .dir ino [])

/-- Removes an empty directory. -/
def removeDir (l : Location) : Op Unit := do
  if !(← namesOf l).isEmpty then throw (.directoryNotEmpty l.text)
  let (parent, name) ← parentOf l
  modify (·.remove parent name)

/-- Removes what is at a location so that a node may take its place: nothing, a file for a file, or an
empty directory for a directory. The directory that lists the location goes on listing it. -/
def makeRoom (node : Node) (l : Location) : Op Unit := do
  match ← look l with
  | none => pure ()
  | some (.dir _ names) =>
    if !node.isDir then throw (.isADirectory l.text)
    else if !names.isEmpty then throw (.directoryNotEmpty l.text)
    else modify (·.erase l)
  | some (.file _ _) => if node.isDir then throw (.notADirectory l.text) else modify (·.erase l)

/-- Gives an entry, with everything below it, another place. The nodes are moved one by one, in the order that
`arrange` brings them into. -/
def renameAlong (arrange : List Location → List Location) (source target : Location) : Op Unit := do
  match ← look source with
  | none => throw (.notFound source.text)
  | some node =>
    if source = target then pure ()
    else if source.isWithin target then
      throw (.invalidArgument ("cannot move " ++ source.text ++ " into itself"))
    else
      let (oldParent, oldName) ← parentOf source
      let (newParent, newName) ← holderOf target
      makeRoom node target
      modify fun s => s.moveNodes source target (arrange (s.within source))
      modify (·.detach oldParent oldName)
      modify (·.attach newParent newName)

/-- Gives an entry, with everything below it, another place. -/
def rename (source target : Location) : Op Unit := renameAlong id source target

end FileProvider.Memory
