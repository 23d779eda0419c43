import FileProvider.Proofs.Memory.Change
import FileProvider.Proofs.Memory.WriteBack

/-!
# Inode numbers

Every node keeps the inode number that it was given when it was created, wherever it is moved, and no
number is given out twice. So the number of a file is never that of a directory, whatever happens next in a
session.
-/

set_option autoImplicit false

namespace FileProvider.Memory

namespace Store

variable {s t u : Store}

/-- Whether every node of `t` either has a number that was not in use before, or comes from a node of `s`
with the same number and of the same kind. -/
structure Descends (s t : Store) : Prop where
  /-- The next number grows. -/
  next : s.nextIno ≤ t.nextIno
  origin : ∀ l node, t.find? l = some node → node.ino < s.nextIno →
    ∃ k old, s.find? k = some old ∧ old.ino = node.ino ∧ old.isDir = node.isDir

theorem Descends.refl (s : Store) : s.Descends s :=
  ⟨Nat.le_refl _, fun l node hl _ => ⟨l, node, hl, rfl, rfl⟩⟩

theorem Descends.trans (h : s.Descends t) (h' : t.Descends u) : s.Descends u := by
  refine ⟨Nat.le_trans h.next h'.next, fun l node hl hlt => ?_⟩
  obtain ⟨k, mid, hk, hino, hdir⟩ := h'.origin l node hl (Nat.lt_of_lt_of_le hlt h.next)
  obtain ⟨k', old, hk', hino', hdir'⟩ := h.origin k mid hk (hino ▸ hlt)
  exact ⟨k', old, hk', hino'.trans hino, hdir'.trans hdir⟩

/-- Whether a number was given to a file: no node has it but that file, if it is still there. -/
def NumbersFile (s : Store) (ino : Nat) : Prop :=
  ino < s.nextIno ∧ ∀ l node, s.find? l = some node → node.ino = ino → node.isDir = false

/-- The number of a file is not given to a directory later. -/
theorem Descends.numbersFile {ino : Nat} (h : s.Descends t) (hs : s.NumbersFile ino) :
    t.NumbersFile ino := by
  refine ⟨Nat.lt_of_lt_of_le hs.1 h.next, fun l node hl hino => ?_⟩
  obtain ⟨k, old, hk, hold, hdir⟩ := h.origin l node hl (hino ▸ hs.1)
  rw [← hdir]
  exact hs.2 k old hk (hold.trans hino)

theorem WellFormed.numbersFile (h : s.WellFormed) {l : Location} {ino : Nat} {data : Bytes}
    (hfile : s.find? l = some (.file ino data)) : s.NumbersFile ino := by
  refine ⟨h.ino_lt l _ hfile, fun k node hk hino => ?_⟩
  obtain rfl := h.ino_inj k l _ _ hk hfile hino
  cases hk.symm.trans hfile
  rfl

end Store

variable {s t : Store}

/-- What a call makes of a store comes from that store. -/
theorem Change.descends (h : Change s t) (hs : s.WellFormed) : s.Descends t := by
  cases h with
  | nothing => exact .refl s
  | @content l ino old hfile data =>
    refine ⟨Nat.le_refl _, fun k node hk _ => ?_⟩
    rw [Store.find?_put] at hk
    split at hk
    · cases hk
      exact ⟨l, _, hfile, rfl, rfl⟩
    · exact ⟨k, node, hk, rfl, rfl⟩
  | @added p n new hp hn hfree hino hnames =>
    refine ⟨Nat.le_succ _, fun k node hk hlt => ?_⟩
    rw [Store.find?_add] at hk
    split at hk
    · cases hk
      exact absurd hino (Nat.ne_of_lt hlt)
    · obtain ⟨old, hold, rfl⟩ := Option.map_eq_some_iff.mp hk
      exact ⟨k, old, hold, Node.ino_attachAt.symm, Node.isDir_attachAt.symm⟩
  | @removed p n gone hnode hnames =>
    have hnext : (s.remove p n).nextIno = s.nextIno := Store.nextIno_detach p n
    refine ⟨Nat.le_of_eq hnext.symm, fun k node hk hlt => ?_⟩
    rw [Store.find?_remove] at hk
    split at hk
    · cases hk
    · obtain ⟨old, hold, rfl⟩ := Option.map_eq_some_iff.mp hk
      exact ⟨k, old, hold, Node.ino_detachAt.symm, Node.isDir_detachAt.symm⟩
  | @relocated p q n m moved hsource hapart hroom hq hm =>
    refine ⟨Nat.le_of_eq Store.nextIno_relocated.symm, fun k node hk hlt => ?_⟩
    rcases Location.within_cases (p ++ [n]) (q ++ [m]) k with ⟨r, rfl⟩ | ⟨r, rfl⟩ | ⟨houtside, houtside'⟩
    · rw [Store.find?_relocated_source hs hapart] at hk
      cases hk
    · rw [Store.find?_relocated_target hs hapart hroom] at hk
      exact ⟨_, node, hk, rfl, rfl⟩
    · rw [Store.find?_relocated_other hs hapart houtside houtside', Option.map_map] at hk
      obtain ⟨old, hold, rfl⟩ := Option.map_eq_some_iff.mp hk
      exact ⟨k, old, hold, by simp, by simp⟩

/-- A call keeps a store well-formed and descending from an earlier one. -/
theorem keeps_descends (s : Store) {α : Type} (c : Call OpenFile α) :
    Keeps (fun t => t.WellFormed ∧ s.Descends t) (backend.call c) := by
  intro t ht
  have hwf := keeps_call c t ht.1
  rcases atomic_call ht.1 c with ⟨e, he⟩ | ⟨a, u, hu, hchange⟩
  · rw [he]
    exact ht
  · rw [hu] at hwf ⊢
    exact ⟨hwf, ht.2.trans (hchange.descends ht.1)⟩

/-! ## Sessions -/

theorem WrittenBack.descends {file : OpenFile} (h : WrittenBack file s t) (hserves : Serves (file, s)) :
    s.Descends t := by
  cases h with
  | clean => exact .refl s
  | lost => exact .refl s
  | written _ hwritten => exact (hwritten.change hserves.1).descends hserves.2

/-- Whatever is done with an open file, the store comes from the one before. -/
theorem descends_io {α : Type} (op : Io α) {file : OpenFile} (hserves : Serves (file, s)) :
    s.Descends ((backend.io op).outcome (file, s)).2.2 := by
  rcases io_cases op file s with ⟨file', hend, _⟩ | hend
  · rw [hend]
    exact .refl s
  · rw [hend]
    exact (writtenBack_release file hserves.2).descends hserves

namespace Session

variable {a b : Session}

/-- Whatever happens next in a session, its store comes from the one before. -/
theorem Next.descends (hnext : Next a b) (h : a.Sound) : a.store.Descends b.store := by
  cases hnext with
  | call c s files => exact (((keeps_descends s c).step_outcome ⟨h.store, .refl s⟩)).2
  | job depth j s t files r hrun =>
    exact ((keeps_job (keeps_descends s) depth j).run_outcome ⟨h.store, .refl s⟩ hrun).2
  | opened path mode s t file files hopen =>
    have hend := (keeps_descends s (.openFile path mode)).step_outcome ⟨h.store, .refl s⟩
    rw [hopen] at hend
    exact hend.2
  | io op s file before after => exact descends_io op h.serves
  | sync s file before after => exact (writtenBack_release file h.store).descends h.serves
  | close s file before after => exact (writtenBack_release file h.store).descends h.serves

end Session

end FileProvider.Memory
