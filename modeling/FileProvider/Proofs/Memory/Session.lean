import FileProvider.Memory.Session
import FileProvider.Proofs.Fs.Tree
import FileProvider.Proofs.Memory.Change

/-!
# Reachable sessions

The store of every session that can come about is well-formed, and a call that is refused there leaves it
as it was. What carries this through the sessions is that an open file names a location with proper names,
because letting it go may create its file again.
-/

set_option autoImplicit false

namespace FileProvider.Memory

/-- Every job keeps what all calls keep, however deep it walks. -/
theorem keeps_job {P : Store → Prop} (hcall : ∀ {α : Type} (c : Call OpenFile α), Keeps P (backend.call c))
    (depth : Store → Nat) (j : Job) : Keeps P (perform depth j) := by
  have hb : (backendTo depth).KeepsOn P (fun _ => True) fun _ => True :=
    .everywhere (fun c => hcall c) (fun _ _ h => nomatch h)
  cases j with
  | copy source target => exact hb.copy trivial trivial
  | removeTree path => exact hb.removeTree trivial
  | moveTree source target conflict => exact hb.moveTree trivial trivial conflict

theorem keeps_perform (depth : Store → Nat) (j : Job) :
    Keeps Store.WellFormed (perform depth j) := keeps_job keeps_call depth j

/-! ## Open files -/

/-- Whether a store is well-formed and an open file names a location by way of children. -/
def Serves (hs : OpenFile × Store) : Prop := hs.1.location.Descends ∧ hs.2.WellFormed

theorem keeps_sync : Keeps Serves sync := by
  rintro ⟨file, s⟩ ⟨hfile, hs⟩
  unfold sync
  dsimp only
  by_cases hdirty : file.dirty = true
  · rw [if_pos hdirty]
    have hwrite := keeps_write hfile file.data s hs
    cases hw : write file.location file.data s with
    | ok a t =>
      rw [hw] at hwrite
      exact ⟨hfile, hwrite⟩
    | error e t =>
      rw [hw] at hwrite
      exact ⟨hfile, hwrite⟩
  · rw [if_neg hdirty]
    exact ⟨hfile, hs⟩

/-- Flushing an open file does what bringing it into the store does. -/
theorem flush_apply (file : OpenFile) (s : Store) :
    ((backend.io .flush).outcome (file, s)).2 = (backend.sync.outcome (file, s)).2 := by
  change ((io .flush).outcome (file, s)).2 = (sync.outcome (file, s)).2
  rw [Step.outcome, io, Step.outcome]
  dsimp only
  cases sync (file, s) <;> rfl

/-- Of all that is done with an open file, only flushing it touches the store. -/
theorem io_cases {α : Type} (op : Io α) (file : OpenFile) (s : Store) :
    (∃ file', ((backend.io op).outcome (file, s)).2 = (file', s) ∧
      file'.location = file.location) ∨
    ((backend.io op).outcome (file, s)).2 = (backend.sync.outcome (file, s)).2 := by
  cases op with
  | flush => exact .inr (flush_apply file s)
  | read count =>
    left
    change ∃ file', ((io (.read count)).outcome (file, s)).2 = (file', s) ∧ _
    rw [Step.outcome, io]
    dsimp only
    cases file.mode.read <;> exact ⟨_, rfl, rfl⟩
  | readAll =>
    left
    change ∃ file', ((io .readAll).outcome (file, s)).2 = (file', s) ∧ _
    rw [Step.outcome, io]
    dsimp only
    cases file.mode.read <;> exact ⟨_, rfl, rfl⟩
  | write data =>
    left
    change ∃ file', ((io (.write data)).outcome (file, s)).2 = (file', s) ∧ _
    rw [Step.outcome, io]
    dsimp only
    cases file.mode.write || file.mode.append <;> exact ⟨_, rfl, rfl⟩
  | seek whence =>
    left
    change ∃ file', ((io (.seek whence)).outcome (file, s)).2 = (file', s) ∧ _
    rw [Step.outcome, io]
    dsimp only
    cases file.sought whence <;> exact ⟨_, rfl, rfl⟩

/-- An open file keeps the location at which it was opened. -/
theorem location_sync (file : OpenFile) (s : Store) :
    (backend.sync.outcome (file, s)).2.1.location = file.location := by
  change (sync.outcome (file, s)).2.1.location = file.location
  unfold Step.outcome sync
  dsimp only
  by_cases hdirty : file.dirty = true
  · rw [if_pos hdirty]
    cases write file.location file.data s <;> rfl
  · rw [if_neg hdirty]

theorem location_io {α : Type} (op : Io α) (file : OpenFile) (s : Store) :
    ((backend.io op).outcome (file, s)).2.1.location = file.location := by
  rcases io_cases op file s with ⟨file', h, hlocation⟩ | h
  · rw [h, hlocation]
  · rw [h, location_sync]

theorem keeps_io {α : Type} (op : Io α) : Keeps Serves (io op) := by
  refine .of_outcome fun (file, s) hfs => ?_
  change Serves ((backend.io op).outcome (file, s)).2
  rcases io_cases op file s with ⟨file', h, hlocation⟩ | h
  · rw [h]
    exact ⟨hlocation ▸ hfs.1, hfs.2⟩
  · rw [h]
    exact keeps_sync.step_outcome hfs

/-- A file that was opened has the location of the path that was given. -/
theorem location_of_openFile {path : Path} {mode : OpenMode} {s t : Store} {file : OpenFile}
    (hs : s.WellFormed) (h : (backend.call (.openFile path mode)).outcome s = (.ok file, t)) :
    file.location = path.location := by
  obtain ⟨ino, data, rfl, _⟩ := (openFile_eq_ok_iff hs).mp (Step.eq_ok_of_outcome h)
  rfl

namespace Session

/-! ## Sessions -/

/-- Whether the store is well-formed and every open file names a location by way of children. -/
structure Sound (a : Session) : Prop where
  store : a.store.WellFormed
  files : ∀ file ∈ a.files, file.location.Descends

variable {a b : Session}

theorem sound_start : start.Sound := ⟨Store.WellFormed.empty, fun _ h => absurd h List.not_mem_nil⟩

/-- A file that was changed takes its place among the others. -/
theorem Sound.replace {s t : Store} {file file' : OpenFile} {before after : List OpenFile}
    (h : Sound ⟨s, before ++ file :: after⟩) (hserves : Serves (file', t)) :
    Sound ⟨t, before ++ file' :: after⟩ := by
  refine ⟨hserves.2, fun f hf => ?_⟩
  rcases List.mem_append.mp hf with hf | hf
  · exact h.files f (List.mem_append_left _ hf)
  · rcases List.mem_cons.mp hf with rfl | hf
    · exact hserves.1
    · exact h.files f (List.mem_append_right _ (List.mem_cons_of_mem _ hf))

/-- The file in the middle of the open files is served by the store. -/
theorem Sound.serves {s : Store} {file : OpenFile} {before after : List OpenFile}
    (h : Sound ⟨s, before ++ file :: after⟩) : Serves (file, s) :=
  ⟨h.files file (List.mem_append_right _ List.mem_cons_self), h.store⟩

/-- Whatever happens next keeps a session sound. -/
theorem Sound.next (h : a.Sound) (hnext : Next a b) : b.Sound := by
  cases hnext with
  | call c s files => exact ⟨(keeps_call c).step_outcome h.store, h.files⟩
  | job depth j s t files r hrun => exact ⟨(keeps_perform depth j).run_outcome h.store hrun, h.files⟩
  | opened path mode s t file files hopen =>
    have hstore := (keeps_call (.openFile path mode)).step_outcome h.store
    rw [hopen] at hstore
    refine ⟨hstore, fun f hf => ?_⟩
    rcases List.mem_cons.mp hf with rfl | hf
    · rw [location_of_openFile h.store hopen]
      exact path.location_descends
    · exact h.files f hf
  | io op s file before after => exact h.replace ((keeps_io op).step_outcome h.serves)
  | sync s file before after => exact h.replace (keeps_sync.step_outcome h.serves)
  | close s file before after =>
    refine ⟨(keeps_sync.step_outcome h.serves).2, fun f hf => ?_⟩
    rcases List.mem_append.mp hf with hf | hf
    · exact h.files f (List.mem_append_left _ hf)
    · exact h.files f (List.mem_append_right _ (List.mem_cons_of_mem _ hf))

/-- Every session that can come about is sound. -/
theorem Reachable.sound (h : a.Reachable) : a.Sound := by
  induction h with
  | start => exact sound_start
  | step _ hnext ih => exact ih.next hnext

/-- The store of every session that can come about holds one tree, although it keeps it twice: the root
is a directory, every location is that of a clean absolute path, there is a child exactly if its parent
lists it, and neither a listing nor the inode numbers repeat themselves. -/
theorem Reachable.one_tree (h : a.Reachable) :
    a.store.IsDir [] ∧
    (∀ l ∈ a.store.entries.map Prod.fst, l.Proper ∧ (Path.mk l.text).location = l) ∧
    (a.store.entries.map Prod.fst).Nodup ∧
    (∀ p n, (a.store.find? (p ++ [n])).isSome = true ↔
      ∃ ino names, a.store.find? p = some (.dir ino names) ∧ n ∈ names) ∧
    (∀ l ino names, a.store.find? l = some (.dir ino names) → names.Nodup) ∧
    (∀ l node, a.store.find? l = some node → node.ino < a.store.nextIno) ∧
    (∀ l k node other, a.store.find? l = some node → a.store.find? k = some other →
      node.ino = other.ino → l = k) := by
  have hs := h.sound.store
  refine ⟨hs.root, fun l hl => ?_, hs.keys, fun p n => (hs.listed p n).trans Store.mem_names_iff,
    fun l ino names hl => hs.once l _ hl, hs.ino_lt, hs.ino_inj⟩
  have hproper := hs.proper l ((Catalogue.isSome_find? a.store.entries l).mpr hl)
  exact ⟨hproper, Path.location_text hproper⟩

/-- A session in which a directory with a file in it was renamed. -/
theorem Reachable.one_tree_renamed :
    ∃ a : Session, a.Reachable ∧ a.store.find? ["b", "f"] = some (.file 3 [7]) ∧
      a.store.find? ["a"] = none ∧
      ∀ l ino names, a.store.find? l = some (.dir ino names) → names.Nodup := by
  have h : Reachable ⟨_, _⟩ :=
    .step (.step (.step .start (.call (.createDir ⟨"/a"⟩) _ _)) (.call (.write ⟨"/a/./f"⟩ [7]) _ _))
      (.call (.rename ⟨"/a"⟩ ⟨"//b"⟩) _ _)
  exact ⟨_, h, by decide +kernel, by decide +kernel, h.one_tree.2.2.2.2.1⟩

/-- A call that is refused in a session leaves the store exactly as it was: everything at every location,
the listings in their order, and the next inode number. -/
theorem Reachable.refused {α : Type} {c : Call OpenFile α} {e : FsError} {t : Store} (ha : a.Reachable)
    (h : (backend.call c).outcome a.store = (.error e, t)) : t = a.store :=
  (atomic_call ha.sound.store c).unchanged h

/-- A directory takes the place of another one only if that is empty. -/
theorem Reachable.refused_rename :
    ∃ (a : Session) (t : Store), a.Reachable ∧ a.store.find? ["b", "f"] = some (.file 4 [7]) ∧
      (backend.call (.rename ⟨"/a"⟩ ⟨"/b"⟩)).outcome a.store = (.error (.directoryNotEmpty "/b"), t) ∧
      t = a.store := by
  obtain ⟨a, ha, hfile, hrefused⟩ : ∃ a : Session, a.Reachable ∧
      a.store.find? ["b", "f"] = some (.file 4 [7]) ∧
      ((backend.call (.rename ⟨"/a"⟩ ⟨"/b"⟩)).outcome a.store).1
        = .error (.directoryNotEmpty "/b") := by
    have ha : Reachable ⟨_, _⟩ :=
      .step (.step (.step .start (.call (.createDir ⟨"/a"⟩) _ _)) (.call (.createDir ⟨"/b"⟩) _ _))
        (.call (.write ⟨"/b/f"⟩ [7]) _ _)
    exact ⟨_, ha, by decide +kernel, by decide +kernel⟩
  exact ⟨a, _, ha, hfile, Prod.ext hrefused rfl, ha.refused (Prod.ext hrefused rfl)⟩

end Session

end FileProvider.Memory
