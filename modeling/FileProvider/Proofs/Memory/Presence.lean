import FileProvider.Proofs.Memory.Endless
import FileProvider.Proofs.Memory.Session

/-!
# What is there after a success

An operation that makes or moves an entry and succeeds leaves something at the place it was given. For a move
by copying to a place that must be free this is so because no other place lets it come to an end: a taken one
is refused, and one below the source is never reached.
-/

set_option autoImplicit false

namespace FileProvider.Memory

variable {s t : Store} {path source target : Path}

/-- A call whose run gave a value gave that value. -/
theorem call_of_run {α : Type} {c : Call OpenFile α} {a : α} (h : backend.run c s = .ok a t) :
    call c s = .ok a t := Run.eq_ok_of_ofStep h

/-- What a stat record was read of is there. -/
theorem found_of_stat {record : Stat} (h : backend.run (.stat path) s = .ok record t) :
    s = t ∧ ∃ node, s.find? path.location = some node ∧ node.stat = record := by
  replace h : stat path.location s = .ok record t := call_of_run h
  rw [stat_apply] at h
  split at h
  · next node hnode =>
    cases h
    exact ⟨rfl, node, hnode, rfl⟩
  · cases h

/-- The entries that a directory answers have proper names. -/
theorem names_of_answer (hwf : s.WellFormed) {entries : List Entry}
    (h : backend.run (.list path) s = .ok entries t) : s = t ∧ ∀ entry ∈ entries, IsName entry.name := by
  replace h : list path.location s = .ok entries t := call_of_run h
  rw [list_apply] at h
  split at h
  · cases h
    refine ⟨rfl, fun entry hentry => ?_⟩
    obtain ⟨n, _, hn⟩ := List.mem_filterMap.mp hentry
    obtain ⟨node, hnode, rfl⟩ := Option.map_eq_some_iff.mp hn
    exact (Location.proper_child.mp (hwf.proper _ (Option.isSome_iff_exists.mpr ⟨node, hnode⟩))).2
  · cases h
  · cases h

/-- A file that was opened is there, and nothing of it waits to be brought into the store. -/
theorem found_of_openFile {mode : OpenMode} {file : OpenFile}
    (h : backend.run (.openFile path mode) s = .ok file t) :
    (t.find? path.location).isSome = true ∧ backend.release file t = t := by
  replace h : openFile path.location mode s = .ok file t := call_of_run h
  generalize path.location = l at h ⊢
  have hread : ∀ {u : Store}, (do
      let data ← read l
      pure (OpenFile.mk l data 0 mode false) : Op OpenFile) u = .ok file t →
        (t.find? l).isSome = true ∧ backend.release file t = t := by
    intro u hu
    obtain ⟨data, v, hdata, hfile⟩ := bind_eq_ok hu
    cases hfile
    refine ⟨?_, rfl⟩
    rw [read_apply] at hdata
    split at hdata
    · next hfound =>
      cases hdata
      rw [hfound]
      rfl
    · cases hdata
    · cases hdata
  obtain ⟨_, u, _, hrest⟩ := bind_eq_ok h
  dsimp only at hrest
  split at hrest
  · obtain ⟨_, v, _, hrest⟩ := bind_eq_ok hrest
    exact hread hrest
  · exact hread hrest

theorem found_of_createDir (h : backend.run (.createDir path) s = .ok () t) :
    (t.find? path.location).isSome = true := by
  replace h : createDir path.location s = .ok () t := call_of_run h
  generalize path.location = l at h ⊢
  rcases createDir_cases l s with ⟨e, he⟩ | ⟨p, n, rfl, _, _, _, hok⟩
  · cases h.symm.trans he
  · cases h.symm.trans hok
    rw [Store.find?_add, if_pos rfl]
    rfl

theorem found_of_rename (hwf : s.WellFormed) (h : backend.run (.rename source target) s = .ok () t) :
    (t.find? target.location).isSome = true := by
  replace h : rename source.location target.location s = .ok () t := call_of_run h
  generalize source.location = l, target.location = k at h ⊢
  rcases rename_cases l k s with ⟨e, he⟩ | ⟨rfl, hsome, hok⟩ |
    ⟨p, n, q, m, node, rfl, rfl, hsource, hbelow, _, _, hroom, hok⟩
  · cases h.symm.trans he
  · cases h.symm.trans hok
    exact hsome
  · cases h.symm.trans hok
    have hempty := fun found hfound => (hroom found hfound).2
    have hapart := hwf.apart_of_room (Option.isSome_iff_exists.mpr ⟨node, hsource⟩) hbelow hempty
    have hfound := Store.find?_relocated_target hwf hapart hempty []
    rw [List.append_nil, List.append_nil, hsource] at hfound
    rw [hfound]
    rfl

/-- What is moved by copying, without overwriting anything, goes to a free place in a directory that is not
below it. -/
theorem room_of_moveTree (hwf : s.WellFormed) (h : backend.moveTree source target .refuse s = .ok () t) :
    ∃ p n q m, source.location = p ++ [n] ∧ target.location = q ++ [m] ∧
      Location.Apart (p ++ [n]) (q ++ [m]) ∧ (s.find? (p ++ [n])).isSome = true ∧
      s.find? (q ++ [m]) = none ∧ Name.isText m = true ∧ s.IsDir q := by
  have hmove : (backendTo backend.depth).moveWalk (s.entries.length + 1) source target .refuse s
      = .ok () t := h
  cases hnode : s.find? source.location with
  | none =>
    rw [moveWalk_missing hnode] at hmove
    cases hmove
  | some node =>
    have hsome : (s.find? source.location).isSome = true := Option.isSome_iff_exists.mpr ⟨node, hnode⟩
    have hfree : s.find? target.location = none := by
      rw [← Option.not_isSome_iff_eq_none]
      intro htaken
      obtain ⟨e, he⟩ := moveWalk_taken hsome htaken
      cases hmove.symm.trans he
    have hroot : target.location ≠ [] := by
      intro hnil
      rw [hnil] at hfree
      exact absurd hwf.root.isSome (by simp [hfree])
    obtain ⟨q, m, htarget⟩ := Location.exists_eq_append hroot
    rw [htarget] at hfree
    obtain ⟨hm, hq⟩ : Name.isText m = true ∧ s.IsDir q := by
      rcases holderOf_cases (q ++ [m]) s with ⟨e, he, -⟩ | ⟨q', m', hplace, hm, hq, -⟩
      · rw [moveWalk_refused htarget hfree hnode he .refuse] at hmove
        cases hmove
      · obtain ⟨rfl, rfl⟩ := Location.child_inj.mp hplace
        exact ⟨hm, hq⟩
    have hbelow : ¬ source.location <+: q ++ [m] := by
      rintro ⟨r, hr⟩
      have hne : r ≠ [] := by
        rintro rfl
        rw [List.append_nil] at hr
        rw [hr, hfree] at hnode
        cases hnode
      have hends : Run.Ends ((backendTo backend.depth).moveWalk (s.entries.length + 1) source target .refuse)
          s _ _ _ := moveWalk_endless .refuse _ hwf hne (htarget.trans hr.symm) htarget hfree hm hq
      exact hends.not_ok () t (Run.outcome_ok hmove)
    have hapart : Location.Apart source.location (q ++ [m]) := by
      refine hwf.apart_of_room hsome hbelow fun found hfound => ?_
      cases hfree.symm.trans hfound
    obtain ⟨p, n, hsource⟩ := Location.exists_eq_append hapart.ne_nil
    rw [hsource] at hapart hsome
    exact ⟨p, n, q, m, hsource, htarget, hapart, hsome, hfree, hm, hq⟩

/-- An entry that was moved by copying, without overwriting anything, is there. -/
theorem found_of_moveTree (hwf : s.WellFormed) (h : backend.moveTree source target .refuse s = .ok () t) :
    (t.find? target.location).isSome = true := by
  obtain ⟨p, n, q, m, hsource, htarget, hapart, hsome, hfree, hm, hq⟩ := room_of_moveTree hwf h
  obtain ⟨u, hu, htransferred⟩ := moveTree_free hwf hsource htarget hapart hsome hfree hm hq
  cases h.symm.trans hu
  have hhere := htransferred.here []
  rw [List.append_nil, List.append_nil] at hhere
  rw [htarget, ← Store.isSome_view, hhere, Store.isSome_view]
  exact hsome

end FileProvider.Memory
