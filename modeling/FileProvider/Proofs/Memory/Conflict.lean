import FileProvider.Proofs.Memory.Removal
import FileProvider.Proofs.Memory.Session

/-!
# What is at the target

A move by copying may find something at its target. Overwriting puts the source on top of it, entry by
entry; replacing removes a directory first, so that the target is free. Neither makes a file of a
directory or a directory of a file.
-/

set_option autoImplicit false

namespace FileProvider.Memory

open Run (Ends)

variable {depth : Store → Nat} {s t : Store} {p q : Location} {n m : String} {source target : Path}

/-! ## Replacing -/

/-- A directory that is to be replaced is removed and created again. -/
theorem roomForDir_replace (h : s.IsDir target.location) :
    (backendTo depth).roomForDir target .replace s
      = ((backendTo depth).removeTree target >>= fun _ =>
          (backendTo depth).run (.createDir target)) s := by
  obtain ⟨ino, names, h⟩ := h
  unfold Backend.roomForDir
  rw [bind_apply, run_probe, h]
  dsimp only
  rw [Option.isSome_some, if_pos rfl, bind_apply, run_stat h]
  rfl

/-- Once a directory that is to be replaced was removed, the move goes on as to a free place. -/
theorem moveWalk_replace {d : Nat} (hdir : s.IsDir target.location)
    (hremove : (backendTo depth).removeTree target s = .ok () t)
    (htarget : target.location = q ++ [m]) (hfree : t.find? (q ++ [m]) = none)
    (hsource : s.IsDir source.location) (hstill : t.IsDir source.location) :
    (backendTo depth).moveWalk (d + 1) source target .replace s
      = (backendTo depth).moveWalk (d + 1) source target .replace t := by
  obtain ⟨ino, names, hsource⟩ := hsource
  obtain ⟨ino', names', hstill⟩ := hstill
  rw [moveWalk_of_dir _ hsource, moveWalk_of_dir _ hstill, bind_apply, roomForDir_replace hdir,
    bind_apply, hremove, bind_apply, roomForDir_free htarget hfree]

section

variable (h : s.WellFormed) (hsource : source.location = p ++ [n])
  (htarget : target.location = q ++ [m]) (hapart : Location.Apart (p ++ [n]) (q ++ [m]))

include h hsource htarget hapart

/-- A directory takes the place of another one. -/
theorem moveTree_replace_dir (hdir : s.IsDir (p ++ [n])) (hpresent : s.IsDir (q ++ [m])) :
    ∃ t, backend.moveTree source target .replace s = .ok () t ∧
      (∀ r, t.view (p ++ [n] ++ r) = none) ∧ ∀ r, t.view (q ++ [m] ++ r) = s.view (p ++ [n] ++ r) := by
  have hremoval : Ends (backend.removeTree target) s (fun _ t => t.WellFormed ∧ s.Removed q m t)
      (fun _ => False) (¬ s.Shallow (q ++ [m]) (s.entries.length + 1)) :=
    ends_removal h htarget hpresent
  obtain ⟨_, t, ht, hwf, hremoved⟩ := hremoval.eq_ok (not_not_intro (shallow_depth h _))
  -- The source has not changed, so it is moved as to a free place.
  have hsame := hremoved.apart hapart
  have hnil := hsame []
  rw [List.append_nil] at hnil
  have hstill : t.IsDir (p ++ [n]) := by
    obtain ⟨ino, names, hfind⟩ := hdir
    exact Store.isDir_of_view (hnil.trans (Store.view_of_find? hfind))
  have hshallow : t.Shallow (p ++ [n]) (s.entries.length + 1) := (shallow_depth h _).congr hsame
  have hmove : backend.moveTree source target .replace s
      = (backendTo backend.depth).moveWalk (s.entries.length + 1) source target .replace t :=
    moveWalk_replace (htarget ▸ hpresent) ht htarget hremoved.free
      (hsource ▸ hdir) (hsource ▸ hstill)
  have hq : t.IsDir q := hremoved.isDir_parent (h.isDir_parent hpresent.isSome)
  have hnone : ∀ r, t.find? (q ++ [m] ++ r) = none := hwf.none_below hremoved.free
  have hends : Ends ((backendTo backend.depth).moveWalk (s.entries.length + 1) source target .replace) t
      _ _ _ := merges .replace _ hwf hsource htarget hapart hstill.isSome (.inr hremoved.free)
    (h.isText hpresent.isSome) hq
  obtain ⟨_, u, hu, hmerged, _⟩ := (hends.mono (fun _ _ => id)
    (fun _ ⟨r, hr⟩ => Store.not_clash_of_none_right (hnone r) hr) id).eq_ok (not_not_intro hshallow)
  refine ⟨u, hmove.trans hu, hmerged.gone, fun r => ?_⟩
  rw [(hmerged.transferred hnone).here, hsame]

/-- Whatever is of the same kind gives way to what replaces it. -/
theorem moveTree_replace (hsome : (s.find? (p ++ [n])).isSome = true) (hm : Name.isText m = true)
    (hq : s.IsDir q) (hclear : ¬ s.Clash (p ++ [n]) (q ++ [m])) :
    ∃ t, backend.moveTree source target .replace s = .ok () t ∧
      (∀ r, t.view (p ++ [n] ++ r) = none) ∧ ∀ r, t.view (q ++ [m] ++ r) = s.view (p ++ [n] ++ r) := by
  obtain ⟨node, hnode⟩ := Option.isSome_iff_exists.mp hsome
  cases hpresent : s.find? (q ++ [m]) with
  | none =>
    have hnone : ∀ r, s.find? (q ++ [m] ++ r) = none := h.none_below hpresent
    obtain ⟨_, t, ht, hmerged, _⟩ := ((ends_moveTree h hsource htarget hapart hsome (.inr hpresent)
      hm hq).mono (fun _ _ => id) (fun _ ⟨r, hr⟩ => Store.not_clash_of_none_right (hnone r) hr) id).eq_ok id
    exact ⟨t, ht, hmerged.gone, (hmerged.transferred hnone).here⟩
  | some found =>
    have hkind : node.isDir = found.isDir := by
      by_contra hkind
      exact hclear ⟨node, found, hnode, hpresent, hkind⟩
    cases node with
    | dir ino names =>
      cases found with
      | file ino' old => cases hkind
      | dir ino' old =>
        exact moveTree_replace_dir h hsource htarget hapart ⟨ino, names, hnode⟩ ⟨ino', old, hpresent⟩
    | file ino data =>
      cases found with
      | dir ino' names => cases hkind
      | file ino' old =>
        have hmerged := Store.merged_file_over h hnode hapart hpresent
        refine ⟨_, moveWalk_over h (by decide) hsource htarget hnode hpresent, hmerged.gone,
          fun r => ?_⟩
        rw [hmerged.here]
        by_cases hr : r = []
        · rw [hr, List.append_nil, List.append_nil, Store.view_of_find? hnode,
            Store.view_of_find? hpresent]
          rfl
        · have hnone := h.none_below_empty (Store.names_of_find? hpresent) hr
          rw [Store.view_eq_none.mpr hnone, merged_none_right]

end

/-- Nothing is moved to where the name is no text: there is nothing of that name, and nothing can come. -/
theorem moveTree_foreign (h : s.WellFormed) (htarget : target.location = q ++ [m])
    (hsource : (s.find? source.location).isSome = true) (hm : Name.isText m = false) (conflict : Conflict) :
    backend.moveTree source target conflict s
      = .error (.failed (.invalidPath ("invalid name: " ++ Location.text (q ++ [m])))) s := by
  obtain ⟨node, hnode⟩ := Option.isSome_iff_exists.mp hsource
  have hmove : (backendTo backend.depth).moveWalk (s.entries.length + 1) source target conflict s
      = .error (.failed _) s :=
    moveWalk_refused htarget (h.none_of_foreign hm) hnode (holderOf_foreign hm s) conflict
  exact hmove

/-! ## Both modes -/

end FileProvider.Memory
