import FileProvider.Proofs.Memory.Move
import FileProvider.Proofs.Memory.Session

/-!
# Renaming and moving by copying agree

A store can rename a tree in one go, and any tree can be moved by copying. To a free place that lies
apart from the old one both come to the same result: they are refused for the same cause and then
change nothing, or they end in stores that are alike.
-/

set_option autoImplicit false

namespace FileProvider.Memory

variable {s : Store} {p q : Location} {n m : String}

/-- Renaming to a free place depends only on whether an entry can come there. -/
theorem rename_free {node : Node} (hsource : s.find? (p ++ [n]) = some node) (hn : Name.isText n = true)
    (hbelow : ¬ p ++ [n] <+: q ++ [m]) (hfree : s.find? (q ++ [m]) = none) :
    (∃ e, holderOf (q ++ [m]) s = .error e s ∧ rename (p ++ [n]) (q ++ [m]) s = .error e s) ∨
    Name.isText m = true ∧ s.IsDir q ∧ rename (p ++ [n]) (q ++ [m]) s = .ok () (s.relocated p n q m) := by
  rw [rename_child hsource hn hbelow]
  rcases holderOf_cases (q ++ [m]) s with ⟨e, he, -⟩ | ⟨q', m', hplace, hm, hq, hholder⟩
  · exact .inl ⟨e, he, by rw [he]⟩
  · obtain ⟨rfl, rfl⟩ := Location.child_inj.mp hplace
    refine .inr ⟨hm, hq, ?_⟩
    rw [hholder]
    dsimp only
    rw [makeRoom_apply, hfree, Store.relocated, Store.carried, Store.erase_of_none hfree]

/-- In every store that can come about, renaming an entry and moving it by copying agree if neither
place lies within the other and nothing is at the new one: both are done and the stores are alike, or
both are refused for the same cause and leave the store as it was. -/
theorem rename_agrees_with_move {a : Session} (ha : a.Reachable) (source target : Path)
    (hapart : Location.Apart source.location target.location)
    (hfree : a.store.find? target.location = none) :
    (∃ t u, (backend.run (.rename source target)).outcome a.store = some (.ok (), t) ∧
      (backend.moveTree source target .refuse).outcome a.store = some (.ok (), u) ∧ t.Alike u) ∨
    ∃ e, (backend.run (.rename source target)).outcome a.store = some (.error e, a.store) ∧
      (backend.moveTree source target .refuse).outcome a.store = some (.error e, a.store) := by
  have h := ha.sound.store
  generalize a.store = s at h hfree ⊢
  obtain ⟨p, n, hsource⟩ := Location.exists_eq_append hapart.ne_nil
  obtain ⟨q, m, htarget⟩ := Location.exists_eq_append hapart.symm.ne_nil
  rw [hsource, htarget] at hapart
  rw [htarget] at hfree
  -- Moving begins with the first step of the walk.
  have hmove : backend.moveTree source target .refuse s
      = (backendTo fun s => s.entries.length + 1).moveWalk (s.entries.length + 1) source target .refuse s :=
    rfl
  have hrename : call (.rename source target) s = rename (p ++ [n]) (q ++ [m]) s := by
    rw [call, hsource, htarget]
  cases hnode : s.find? (p ++ [n]) with
  | none =>
    rw [rename_none _ hnode] at hrename
    rw [← hsource] at hnode hrename
    exact .inr ⟨_, Run.outcome_failed (Run.ofStep_error hrename),
      Run.outcome_failed (hmove.trans (moveWalk_missing hnode))⟩
  | some node =>
    have hsome : (s.find? (p ++ [n])).isSome = true := Option.isSome_iff_exists.mpr ⟨node, hnode⟩
    rcases rename_free hnode (h.isText hsome) hapart.not_within hfree with ⟨e, he, hrefused⟩ | ⟨hm, hq, hok⟩
    · rw [hrefused] at hrename
      exact .inr ⟨e, Run.outcome_failed (Run.ofStep_error hrename),
        Run.outcome_failed (hmove.trans (moveWalk_refused htarget hfree (hsource ▸ hnode) he .refuse))⟩
    · rw [hok] at hrename
      obtain ⟨u, hu, htransferred⟩ := moveTree_free h hsource htarget hapart hsome hfree hm hq
      have hroom : ∀ found, s.find? (q ++ [m]) = some found → found.names = [] := by
        intro found hfound
        cases hfree.symm.trans hfound
      exact .inl ⟨_, u, Run.outcome_ok (Run.ofStep_ok hrename), Run.outcome_ok hu,
        (Store.transferred_relocated h hapart hroom).alike htransferred⟩

/-- A directory with a file in it, renamed or moved by copying into another one. -/
theorem rename_agrees_with_move_into :
    ∃ a : Session, a.Reachable ∧ a.store.find? ["a", "f"] = some (.file 3 [7]) ∧
      ∃ t u, (backend.run (.rename ⟨"/a"⟩ ⟨"/b/./c"⟩)).outcome a.store = some (.ok (), t) ∧
        (backend.moveTree ⟨"/a"⟩ ⟨"/b/./c"⟩ .refuse).outcome a.store = some (.ok (), u) ∧ t.Alike u := by
  have h : Session.Reachable ⟨_, _⟩ :=
    .step (.step (.step .start (.call (.createDir ⟨"/a"⟩) _ _)) (.call (.write ⟨"/a/f"⟩ [7]) _ _))
      (.call (.createDir ⟨"/b"⟩) _ _)
  refine ⟨_, h, by decide +kernel, ?_⟩
  refine (rename_agrees_with_move h ⟨"/a"⟩ ⟨"/b/./c"⟩
    ⟨by decide +kernel, by decide +kernel⟩ (by decide +kernel)).resolve_right ?_
  rintro ⟨e, he, _⟩
  have hrefused := congrArg (Option.map fun r => r.1.isOk) he
  change _ = some false at hrefused
  exact absurd hrefused (by decide +kernel)

end FileProvider.Memory
