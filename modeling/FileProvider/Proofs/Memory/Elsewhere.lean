import FileProvider.Proofs.Memory.Walk
import FileProvider.Proofs.Memory.WriteBack

/-!
# What happens elsewhere

A call touches the paths at which it may change something: those that it writes, creates or removes, and both
ends of a renaming. A file is not affected by what touches neither its location nor one above it, be it a call,
a whole job, or another open file that is written back to a location of its own. `Elsewhere` collects all that
can happen in a session without changing anything about one file.
-/

set_option autoImplicit false

namespace FileProvider

/-- The paths at which a call may change something. -/
def Call.touched {η α : Type} : Call η α → List Path
  | .read _ => []
  | .write path _ => [path]
  | .create path => [path]
  | .delete path => [path]
  | .probe _ => []
  | .stat _ => []
  | .list _ => []
  | .createDir path => [path]
  | .removeDir path => [path]
  | .rename source target => [source, target]
  | .openFile path mode => if mode.truncate || mode.create || mode.createNew then [path] else []

/-- The paths at which a job may change something. -/
def Job.touched : Job → List Path
  | .copy _ target => [target]
  | .removeTree path => [path]
  | .moveTree source target _ => [source, target]

namespace Memory

/-! ## One file in a store that changes -/

/-- Whether a well-formed store has a certain file at a location. -/
structure FileAt (l : Location) (ino : Nat) (data : Bytes) (s : Store) : Prop where
  store : s.WellFormed
  file : s.find? l = some (.file ino data)

variable {s t : Store} {l k p q : Location} {n m : String} {ino : Nat} {data new : Bytes}

namespace Node

/-- A file lists nothing, so no name is attached to it. -/
theorem attachAt_file (here p : Location) (n : String) (ino : Nat) (data : Bytes) :
    (Node.file ino data).attachAt here p n = .file ino data := by
  unfold attachAt
  split <;> rfl

theorem detachAt_file (here p : Location) (n : String) (ino : Nat) (data : Bytes) :
    (Node.file ino data).detachAt here p n = .file ino data := by
  unfold detachAt
  split <;> rfl

end Node

namespace FileAt

variable (h : FileAt l ino data s)

include h

theorem find?_put (hk : k ≠ l) (node : Node) : (s.put k node).find? l = some (.file ino data) := by
  rw [Store.find?_put, if_neg (Ne.symm hk), h.file]

theorem find?_add (hk : p ++ [n] ≠ l) (node : Nat → Node) :
    (s.add p n node).find? l = some (.file ino data) := by
  rw [Store.find?_add, if_neg (Ne.symm hk), h.file, Option.map_some, Node.attachAt_file]

theorem find?_remove (hk : p ++ [n] ≠ l) : (s.remove p n).find? l = some (.file ino data) := by
  rw [Store.find?_remove, if_neg (Ne.symm hk), h.file, Option.map_some, Node.detachAt_file]

theorem find?_relocated (hapart : Location.Apart (p ++ [n]) (q ++ [m])) (hsource : ¬ p ++ [n] <+: l)
    (htarget : ¬ q ++ [m] <+: l) : (s.relocated p n q m).find? l = some (.file ino data) := by
  rw [Store.find?_relocated_other h.store hapart hsource htarget, h.file, Option.map_some, Option.map_some,
    Node.detachAt_file, Node.attachAt_file]

/-- Writing to another location leaves the file as it is. -/
theorem find?_written (hwritten : Written new s k t) (hk : k ≠ l) : t.find? l = some (.file ino data) := by
  cases hwritten with
  | replaced hfile => exact h.find?_put hk _
  | created => exact h.find?_add hk _

/-- Opening changes nothing if it neither creates nor empties a file, and no other location in any case. -/
theorem find?_opened {mode : OpenMode} {ino' : Nat} (hopened : Opened mode s k ino' new t)
    (hk : (mode.truncate || mode.create || mode.createNew) = true → k ≠ l) :
    t.find? l = some (.file ino data) := by
  cases hopened with
  | found => exact h.file
  | emptied hfile hnew htruncate => exact h.find?_put (hk (by rw [htruncate]; rfl)) _
  | created hn hp hfree hcreate =>
    refine h.find?_add (hk ?_) _
    rw [Bool.or_assoc, hcreate, Bool.or_true]

/-- Writing back an open file of another location leaves the file as it is. -/
theorem release {file : OpenFile} (hlocation : file.location ≠ l) :
    (backend.release file s).find? l = some (.file ino data) := by
  have hback := writtenBack_release file h.store
  generalize backend.release file s = t at hback ⊢
  cases hback with
  | clean hclean => exact h.file
  | lost hdirty hnone => exact h.file
  | written hdirty hwritten => exact h.find?_written hwritten hlocation

end FileAt

/-- What is not above a location is not the location itself. -/
theorem ne_of_not_within (h : ¬ k <+: l) : k ≠ l := fun heq => h (heq ▸ List.prefix_refl k)

/-! ## Calls and jobs -/

/-- A call that touches neither a location nor one above it leaves a file there as it is. -/
theorem atomic_call_elsewhere {α : Type} (h : FileAt l ino data s) (c : Call OpenFile α)
    (hc : ∀ path ∈ c.touched, ¬ path.location <+: l) :
    Atomic (backend.call c) s fun _ t => t.find? l = some (.file ino data) := by
  have hlooks : ∀ {β : Type} {x : Op β}, (∀ P, Keeps P x) →
      Atomic x s fun _ t => t.find? l = some (.file ino data) := by
    intro β x hx
    exact (Keeps.looks hx s).mono fun _ t ht => ht ▸ h.file
  cases c with
  | read path => exact hlooks fun P => keeps_read P _
  | probe path => exact hlooks fun P => (keeps_look P _).bind fun _ => .pure _
  | stat path => exact hlooks fun P => keeps_stat P _
  | list path => exact hlooks fun P => keeps_list P _
  | write path new =>
    have hne := ne_of_not_within (hc path List.mem_cons_self)
    exact (atomic_writing _ new s).mono fun _ t ht => h.find?_written ht hne
  | create path =>
    have hne := ne_of_not_within (hc path List.mem_cons_self)
    exact (atomic_writing _ [] s).mono fun _ t ht => h.find?_written ht hne
  | delete path =>
    have hne := ne_of_not_within (hc path List.mem_cons_self)
    rcases delete_cases path.location s with ⟨e, he⟩ | ⟨p, n, ino', old, hpath, -, hok⟩
    · exact .of_error he
    · exact .of_ok hok (h.find?_remove (hpath ▸ hne))
  | createDir path =>
    have hne := ne_of_not_within (hc path List.mem_cons_self)
    rcases createDir_cases path.location s with ⟨e, he⟩ | ⟨p, n, hpath, -, -, -, hok⟩
    · exact .of_error he
    · exact .of_ok hok (h.find?_add (hpath ▸ hne) _)
  | removeDir path =>
    have hne := ne_of_not_within (hc path List.mem_cons_self)
    rcases removeDir_cases path.location s with ⟨e, he⟩ | ⟨p, n, ino', hpath, -, hok⟩
    · exact .of_error he
    · exact .of_ok hok (h.find?_remove (hpath ▸ hne))
  | rename source target =>
    have hsource := hc source List.mem_cons_self
    have htarget := hc target (List.mem_cons_of_mem _ List.mem_cons_self)
    rcases rename_cases source.location target.location s with ⟨e, he⟩ | ⟨-, -, hok⟩ |
      ⟨p, n, q, m, node, hold, hnew, hnode, hbelow, -, -, hroom, hok⟩
    · exact .of_error he
    · exact .of_ok hok h.file
    · have hapart := h.store.apart_of_room (Option.isSome_iff_exists.mpr ⟨node, hnode⟩) hbelow
        fun found hfound => (hroom found hfound).2
      rw [hold, hnew] at hapart
      exact .of_ok hok (h.find?_relocated hapart (hold ▸ hsource) (hnew ▸ htarget))
  | openFile path mode =>
    refine (atomic_opening h.store.keys _ mode).mono fun file t ht => ?_
    obtain ⟨ino', found, -, hopened⟩ := ht
    refine h.find?_opened hopened fun hmode => ne_of_not_within (hc path ?_)
    rw [Call.touched, if_pos hmode]
    exact List.mem_cons_self

theorem keeps_call_elsewhere {α : Type} (c : Call OpenFile α)
    (hc : ∀ path ∈ c.touched, ¬ path.location <+: l) : Keeps (FileAt l ino data) (backend.call c) := by
  refine .of_atomic fun s h => ?_
  have hcall := (atomic_call_elsewhere h c hc).keep (keeps_call c) h.store
  exact hcall.mono fun _ _ ⟨hstore, hfile⟩ => ⟨hstore, hfile⟩

/-- A call with one path touches no other. -/
theorem subject_of_touched {α : Type} {c : Call OpenFile α} (htarget : c.target? = none) {path : Path}
    (h : path ∈ c.touched) : path = c.subject := by
  cases c with
  | rename source target => cases htarget
  | openFile path mode =>
    rw [Call.touched] at h
    split at h
    · exact List.mem_singleton.mp h
    · exact absurd h List.not_mem_nil
  | read | probe | stat | list => exact absurd h List.not_mem_nil
  | write | create | delete | createDir | removeDir => exact List.mem_singleton.mp h

/-- The names that a directory of a well-formed store answers are proper ones. -/
theorem isName_of_list {entries : List Entry} (hs : s.WellFormed) (h : list k s = .ok entries t) :
    ∀ e ∈ entries, IsName e.name := by
  rw [list_apply] at h
  cases hl : s.find? k with
  | none =>
    rw [hl] at h
    cases h
  | some node =>
    cases node with
    | file ino data =>
      rw [hl] at h
      cases h
    | dir ino names =>
      rw [hl] at h
      cases h
      intro e he
      have hname := List.mem_map_of_mem (f := Entry.name) he
      rw [names_of_list hs hl] at hname
      exact hs.isName (Store.mem_names_iff.mpr ⟨ino, names, hl, hname⟩)

/-- A walk that begins elsewhere stays elsewhere, because what is below a location that is not above the file
is not above it either. -/
theorem keepsOn_elsewhere (depth : Store → Nat) (l : Location) (ino : Nat) (data : Bytes) :
    (backendTo depth).KeepsOn (FileAt l ino data) (fun path => ¬ path.location <+: l)
      fun path => ¬ path.location <+: l where
  into := id
  call c htarget hpath _ := keeps_call_elsewhere c fun _ h => subject_of_touched htarget h ▸ hpath
  list := by
    intro s t path entries h _ hlist e he q
    change Memory.list path.location s = _ at hlist
    have hjoin : ¬ q.location <+: l → ¬ (q.join e.name).location <+: l := fun hq hwithin => by
      rw [Path.location_join q (isName_of_list h.store hlist e he)] at hwithin
      exact hq ((List.prefix_append _ _).trans hwithin)
    exact ⟨hjoin, hjoin⟩
  native _ _ h := nomatch h

theorem keeps_job_elsewhere (depth : Store → Nat) (j : Job)
    (hj : ∀ path ∈ j.touched, ¬ path.location <+: l) : Keeps (FileAt l ino data) (perform depth j) := by
  have hb := keepsOn_elsewhere depth l ino data
  cases j with
  | copy source target =>
    -- The source of a copy is only read, so it may be anywhere.
    have hread : Keeps (FileAt l ino data) (backend.call (.read source)) :=
      keeps_call_elsewhere _ fun _ h => absurd h List.not_mem_nil
    have htarget := hj target List.mem_cons_self
    exact hread.ofStep.bind fun new => (hb.call (.write target new) rfl htarget fun _ => htarget).ofStep
  | removeTree path => exact hb.removeTree (hj path List.mem_cons_self)
  | moveTree source target conflict =>
    exact hb.moveTree (hj source List.mem_cons_self)
      (hj target (List.mem_cons_of_mem _ List.mem_cons_self)) conflict

/-! ## Sessions -/

namespace Session

/-- What can happen next in a session while nothing about the file at a location is changed. -/
inductive Elsewhere (l : Location) : Session → Session → Prop where
  /-- A call that touches neither the location nor one above it. -/
  | call {α : Type} (c : Call OpenFile α) (s : Store) (files : List OpenFile)
      (hc : ∀ path ∈ c.touched, ¬ path.location <+: l) :
      Elsewhere l ⟨s, files⟩ ⟨((backend.call c).outcome s).2, files⟩
  /-- A job that touches neither the location nor one above it. -/
  | job (depth : Store → Nat) (j : Job) (s t : Store) (files : List OpenFile) (r : Except FsError Unit)
      (h : (perform depth j).outcome s = some (r, t)) (hj : ∀ path ∈ j.touched, ¬ path.location <+: l) :
      Elsewhere l ⟨s, files⟩ ⟨t, files⟩
  /-- A file is opened and kept, without being created or emptied unless it is elsewhere. -/
  | opened (path : Path) (mode : OpenMode) (s t : Store) (file : OpenFile) (files : List OpenFile)
      (h : (backend.call (.openFile path mode)).outcome s = (.ok file, t))
      (hc : ∀ q ∈ (Call.openFile path mode : Call OpenFile OpenFile).touched, ¬ q.location <+: l) :
      Elsewhere l ⟨s, files⟩ ⟨t, file :: files⟩
  /-- An open file of another location is read, written, sought in or flushed. -/
  | io {α : Type} (op : Io α) (s : Store) (file : OpenFile) (before after : List OpenFile)
      (hlocation : file.location ≠ l) :
      Elsewhere l ⟨s, before ++ file :: after⟩
        ⟨((backend.io op).outcome (file, s)).2.2,
          before ++ ((backend.io op).outcome (file, s)).2.1 :: after⟩
  /-- An open file of another location is brought into the store. -/
  | sync (s : Store) (file : OpenFile) (before after : List OpenFile) (hlocation : file.location ≠ l) :
      Elsewhere l ⟨s, before ++ file :: after⟩
        ⟨(backend.sync.outcome (file, s)).2.2,
          before ++ (backend.sync.outcome (file, s)).2.1 :: after⟩
  /-- An open file of another location is let go. -/
  | close (s : Store) (file : OpenFile) (before after : List OpenFile) (hlocation : file.location ≠ l) :
      Elsewhere l ⟨s, before ++ file :: after⟩ ⟨backend.release file s, before ++ after⟩
  /-- Anything else, as long as what is at the location is the same afterwards. -/
  | harmless {a b : Session} (hnext : Next a b) (hsame : b.store.find? l = a.store.find? l) : Elsewhere l a b

variable {a b : Session}

/-- What happens elsewhere is something that can happen. -/
theorem Elsewhere.next (h : Elsewhere l a b) : Next a b := by
  cases h with
  | call c s files hc => exact .call c s files
  | job depth j s t files r h hj => exact .job depth j s t files r h
  | opened path mode s t file files h hc => exact .opened path mode s t file files h
  | io op s file before after hlocation => exact .io op s file before after
  | sync s file before after hlocation => exact .sync s file before after
  | close s file before after hlocation => exact .close s file before after
  | harmless hnext hsame => exact hnext

/-- What happens elsewhere leaves the file as it is. -/
theorem Elsewhere.find? (h : Elsewhere l a b) (ha : a.Sound) (hfile : a.store.find? l = some (.file ino data)) :
    b.store.find? l = some (.file ino data) := by
  have hat : FileAt l ino data a.store := ⟨ha.store, hfile⟩
  cases h with
  | call c s files hc => exact ((keeps_call_elsewhere c hc).step_outcome hat).file
  | job depth j s t files r h hj => exact ((keeps_job_elsewhere depth j hj).run_outcome hat h).file
  | opened path mode s t file files h hc =>
    have hend := (keeps_call_elsewhere (.openFile path mode) hc).step_outcome hat
    rw [h] at hend
    exact hend.file
  | io op s file before after hlocation =>
    rcases io_cases op file s with ⟨file', hio, -⟩ | hio
    · rw [hio]
      exact hfile
    · rw [hio]
      exact hat.release hlocation
  | sync s file before after hlocation => exact hat.release hlocation
  | close s file before after hlocation => exact hat.release hlocation
  | harmless hnext hsame => exact hsame.trans hfile

end Session

end Memory

end FileProvider
