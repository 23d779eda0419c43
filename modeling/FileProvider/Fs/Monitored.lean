import FileProvider.Fs.Backend

/-!
# Monitored backends

A monitored backend logs every call before it is answered, can be told to refuse calls and to answer
with given stat records, and has a clock that dates every stat record that it does not give itself.
What is done with open files passes by the monitor, except for the date of their stat records.
-/

set_option autoImplicit false

namespace FileProvider

/-- A rule that makes calls fail. -/
structure FaultRule where
  /-- The name of the calls that fail. -/
  method : String
  /-- Their first path, or a star for any. -/
  path : String
  /-- The cause that they report. -/
  cause : FsError
  /-- How many more calls fail; without a number, all do. -/
  remaining : Option Nat
deriving DecidableEq, Repr

namespace FaultRule

/-- Whether a rule concerns a call of that name on that path. -/
def concerns (r : FaultRule) (method : String) (path : Path) : Bool :=
  r.method = method && (r.path = "*" || r.path = path.text) && r.remaining != some 0

/-- The rule after one more call has failed. -/
def spend (r : FaultRule) : FaultRule := { r with remaining := r.remaining.map (· - 1) }

/-- The cause by which the first rule that concerns a call makes it fail, and the rules after
that. -/
def apply (method : String) (path : Path) : List FaultRule → Option (FsError × List FaultRule)
  | [] => none
  | r :: rest =>
    if r.concerns method path then some (r.cause, r.spend :: rest)
    else (apply method path rest).map fun (cause, rest') => (cause, r :: rest')

end FaultRule

/-- The state of a monitored backend. -/
structure Monitored (σ : Type) where
  inner : σ
  /-- The date of stat records. -/
  clock : Timestamp
  /-- What was called, the last call first. -/
  log : List String
  /-- The rules that make calls fail, the first one that concerns a call deciding. -/
  faults : List FaultRule
  /-- The stat records that are given instead of the backend's, the last one added first. -/
  overrides : List (String × Stat)

namespace Monitored

variable {σ η α : Type}

/-- The state in which nothing was called and no rule is set. -/
def start (clock : Timestamp) (inner : σ) : Monitored σ := ⟨inner, clock, [], [], []⟩

/-- The calls in the order in which they were made. -/
def calls (s : Monitored σ) : List String := s.log.reverse

/-- Forgets the calls that were made. -/
def clearLog (s : Monitored σ) : Monitored σ := { s with log := [] }

/-- Adds a rule behind the others. -/
def addFault (r : FaultRule) (s : Monitored σ) : Monitored σ := { s with faults := s.faults ++ [r] }

/-- Forgets the rules. -/
def clearFaults (s : Monitored σ) : Monitored σ := { s with faults := [] }

/-- Gives a stat record for a path. -/
def override (path : String) (stat : Stat) (s : Monitored σ) : Monitored σ :=
  { s with overrides := (path, stat) :: s.overrides }

/-- How a call is logged. -/
def line (method : String) (subject : Path) : Option Path → String
  | none => method ++ " " ++ subject.text
  | some target => method ++ " " ++ subject.text ++ " -> " ++ target.text

/-- Logs a call and lets it fail if a rule says so. -/
def register (method : String) (subject : Path) (target : Option Path) :
    Step (Monitored σ) FsError Unit := fun s =>
  let s := { s with log := line method subject target :: s.log }
  match FaultRule.apply method subject s.faults with
  | some (cause, faults) => .error cause { s with faults := faults }
  | none => .ok () s

/-- A step of the backend itself. -/
def inside {ε : Type} (x : Step σ ε α) : Step (Monitored σ) ε α :=
  Step.zoom Monitored.inner (fun inner s => { s with inner := inner }) x

/-- Answers a call that was let through. -/
def answer (b : Backend σ η) : {α : Type} → Call η α → Step (Monitored σ) FsError α
  | _, .stat path => fun s =>
    match s.overrides.lookup path.text with
    | some stat => .ok stat s
    | none => (inside (b.call (.stat path)) |>.map (Stat.stamped s.clock)) s
  | _, c => inside (b.call c)

/-- A step on an open file and the backend itself. -/
def insideFile {ε : Type} (x : Step (η × σ) ε α) : Step (η × Monitored σ) ε α :=
  Step.zoom (fun (h, s) => (h, s.inner)) (fun (h, inner) (_, s) => (h, { s with inner := inner })) x

/-- The length of the longest path that a rule or a given stat record names. -/
def longestRule (s : Monitored σ) : Nat :=
  (s.faults.map (fun r => r.path.length) ++ s.overrides.map (fun o => o.1.length)).foldl max 0

/-- The backend `b` under a monitor. -/
def backend (b : Backend σ η) : Backend (Monitored σ) η where
  name := b.name
  call c := do
    register c.method c.subject c.target?
    answer b c
  io op := insideFile (b.io op)
  sync := insideFile b.sync
  statFile := do
    let (_, s) ← get
    (insideFile b.statFile).map (Stat.stamped s.clock)
  release h s := { s with inner := b.release h s.inner }
  native? job := (b.native? job).map fun run => do
    Run.ofStep (register job.method job.subject job.target?)
    run.zoom Monitored.inner fun inner s => { s with inner := inner }
  depth s := b.depth s.inner + s.longestRule + 1

end Monitored

end FileProvider
