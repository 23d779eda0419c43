import FileProvider.Fs.Tree
import FileProvider.Memory.Backend

/-!
# Sessions in memory

A session is a store with the files that are open on it. It begins with the empty store and goes on
with calls, jobs, and what is done with the open files, each of which may succeed or fail. A job may
walk as deep as it likes, as long as it comes to an end.
-/

set_option autoImplicit false

namespace FileProvider.Memory

/-- The backend in memory with a depth limit of one's own. -/
def backendTo (depth : Store → Nat) : Backend Store OpenFile := { backend with depth := depth }

/-- Does a job. -/
def perform (depth : Store → Nat) : Job → Run Store FsError Unit
  | .copy source target => (backendTo depth).copy source target
  | .removeTree path => (backendTo depth).removeTree path
  | .moveTree source target conflict => (backendTo depth).moveTree source target conflict

/-- A store with the files that are open on it. -/
structure Session where
  store : Store
  files : List OpenFile
deriving DecidableEq, Repr

namespace Session

/-- The session in which nothing has happened. -/
def start : Session := ⟨Store.empty, []⟩

/-- What can happen next in a session. -/
inductive Next : Session → Session → Prop where
  /-- A call is answered or refused; a file that it opens is not kept. -/
  | call {α : Type} (c : Call OpenFile α) (s : Store) (files : List OpenFile) :
      Next ⟨s, files⟩ ⟨((backend.call c).outcome s).2, files⟩
  /-- A job comes to an end, done or refused. -/
  | job (depth : Store → Nat) (j : Job) (s t : Store) (files : List OpenFile)
      (r : Except FsError Unit) (h : (perform depth j).outcome s = some (r, t)) :
      Next ⟨s, files⟩ ⟨t, files⟩
  /-- A file is opened and kept. -/
  | opened (path : Path) (mode : OpenMode) (s t : Store) (file : OpenFile) (files : List OpenFile)
      (h : (backend.call (.openFile path mode)).outcome s = (.ok file, t)) :
      Next ⟨s, files⟩ ⟨t, file :: files⟩
  /-- An open file is read, written, sought in or flushed. -/
  | io {α : Type} (op : Io α) (s : Store) (file : OpenFile) (before after : List OpenFile) :
      Next ⟨s, before ++ file :: after⟩
        ⟨((backend.io op).outcome (file, s)).2.2,
          before ++ ((backend.io op).outcome (file, s)).2.1 :: after⟩
  /-- An open file is brought into the store. -/
  | sync (s : Store) (file : OpenFile) (before after : List OpenFile) :
      Next ⟨s, before ++ file :: after⟩
        ⟨(backend.sync.outcome (file, s)).2.2,
          before ++ (backend.sync.outcome (file, s)).2.1 :: after⟩
  /-- An open file is let go. -/
  | close (s : Store) (file : OpenFile) (before after : List OpenFile) :
      Next ⟨s, before ++ file :: after⟩ ⟨backend.release file s, before ++ after⟩

/-- The sessions that can come about. -/
inductive Reachable : Session → Prop where
  | start : Reachable start
  | step {a b : Session} (h : Reachable a) (hnext : Next a b) : Reachable b

end Session

end FileProvider.Memory
