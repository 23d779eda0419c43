import FileProvider.Proofs.Memory.Opening
import FileProvider.Proofs.Memory.Session

/-!
# Writing an open file back

Flushing an open file, bringing it into the store and letting it go all do the same to the store: the
whole copy becomes the content of whatever file is at the location where the file was opened, and if
nothing is there, a new file is created. Whether it still is the file that was opened is not checked;
`Strays` says when it is not.
-/

set_option autoImplicit false

namespace FileProvider.Memory

variable {s t : Store} {file : OpenFile}

/-- What bringing an open file into a store makes of it. -/
inductive WrittenBack (file : OpenFile) (s : Store) : Store → Prop where
  /-- Nothing was written to the file since its last flush. -/
  | clean (hclean : file.dirty = false) : WrittenBack file s s
  /-- The copy is written to the location, be it to the file that was opened, to another one or to a new
  one. -/
  | written {t : Store} (hdirty : file.dirty = true) (hwritten : Written file.data s file.location t) :
      WrittenBack file s t
  /-- At the location there is neither a file nor a place for one. -/
  | lost (hdirty : file.dirty = true) (hnone : ∀ t, ¬ Written file.data s file.location t) :
      WrittenBack file s s

theorem writtenBack_release (file : OpenFile) (hs : s.WellFormed) :
    WrittenBack file s (backend.release file s) := by
  change WrittenBack file s ((sync.outcome (file, s)).2).2
  unfold Step.outcome sync
  dsimp only
  by_cases hdirty : file.dirty = true
  · rw [if_pos hdirty]
    rcases atomic_writing file.location file.data s with ⟨e, he⟩ | ⟨_, t, ht, hwritten⟩
    · rw [he]
      refine .lost hdirty fun t hwritten => ?_
      have hok := (write_eq_ok_iff hs).mpr hwritten
      cases he.symm.trans hok
    · rw [ht]
      exact .written hdirty hwritten
  · rw [if_neg hdirty]
    exact .clean (Bool.not_eq_true _ ▸ hdirty)

/-! ## The file that was opened and other ones -/

/-- Whether no entry came into being, and none was changed but the one with a given number. -/
def Store.Spares (ino : Nat) (s t : Store) : Prop :=
  (∀ l, s.find? l = none → t.find? l = none) ∧
  ∀ l node, s.find? l = some node → node.ino ≠ ino → t.find? l = some node

/-- Whether writing an open file back touches anything but the file with a given number: it would create a
file, or change the content of one with another number. -/
def OpenFile.Strays (ino : Nat) (file : OpenFile) (s : Store) : Prop :=
  file.dirty = true ∧
  ((s.find? file.location = none ∧ s.Admits file.location) ∨
    ∃ other old, s.find? file.location = some (.file other old) ∧ other ≠ ino ∧ old ≠ file.data)

theorem Store.spares_refl (ino : Nat) (s : Store) : s.Spares ino s :=
  ⟨fun _ hl => hl, fun _ _ hl _ => hl⟩

/-- Replacing the content of a file spares the others if it is the right file, or nothing changes. -/
theorem Store.spares_put {ino other : Nat} {l : Location} {old data : Bytes}
    (hfile : s.find? l = some (.file other old)) :
    s.Spares ino (s.put l (.file other data)) ↔ other = ino ∨ old = data := by
  constructor
  · rintro ⟨_, hchange⟩
    by_contra hne
    rw [not_or] at hne
    have hsame := hchange l _ hfile hne.1
    rw [find?_put, if_pos rfl] at hsame
    cases hsame
    exact hne.2 rfl
  · intro h
    refine ⟨fun k hk => ?_, fun k node hk hino => ?_⟩
    · have hkl : k ≠ l := by
        rintro rfl
        cases hk.symm.trans hfile
      rw [find?_put, if_neg hkl, hk]
    · rw [find?_put]
      split
      · next hkl =>
        subst hkl
        cases hk.symm.trans hfile
        rcases h with rfl | rfl
        · exact absurd rfl hino
        · rfl
      · exact hk

/-- Writing an open file back spares the other entries exactly if it does not stray. -/
theorem spares_release_iff (hs : s.WellFormed) (ino : Nat) :
    s.Spares ino (backend.release file s) ↔ ¬ file.Strays ino s := by
  have hback := writtenBack_release file hs
  generalize backend.release file s = t at hback ⊢
  cases hback with
  | clean hclean =>
    refine iff_of_true (s.spares_refl ino) fun hstrays => ?_
    cases hclean.symm.trans hstrays.1
  | lost hdirty hnone =>
    refine iff_of_true (s.spares_refl ino) ?_
    rintro ⟨_, ⟨hfree, p, n, hplace, hn, hp⟩ | ⟨other, old, hfile, _⟩⟩
    · rw [hplace] at hnone hfree
      exact hnone _ (.created hn hp hfree)
    · exact hnone _ (.replaced hfile)
  | written hdirty hwritten =>
    generalize hl : file.location = l at hwritten
    cases hwritten with
    | @replaced _ other old hfile =>
      rw [Store.spares_put hfile, OpenFile.Strays, hl, hfile]
      constructor
      · rintro hor ⟨_, ⟨hfree, _⟩ | ⟨other', old', heq, hne, hdiff⟩⟩
        · cases hfree
        · cases heq
          exact hor.elim hne hdiff
      · intro hstrays
        by_contra hne
        rw [not_or] at hne
        exact hstrays ⟨hdirty, .inr ⟨other, old, rfl, hne⟩⟩
    | @created p n hn hp hfree =>
      refine iff_of_false (fun hspares => ?_) fun hstrays => hstrays ⟨hdirty, .inl ?_⟩
      · have hnone := hspares.1 _ hfree
        rw [Store.find?_add, if_pos rfl] at hnone
        cases hnone
      · exact ⟨hl ▸ hfree, p, n, hl, hn, hp⟩

end FileProvider.Memory
