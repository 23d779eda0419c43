import FileProvider.Proofs.Memory.Passage
import Mathlib.Data.List.Nodup
import Mathlib.Data.List.Perm.Subperm

/-!
# Moving a tree by copying

Moving by copying puts a tree on top of what is at the new place, by induction on the depth of the walk;
to a free place it takes a tree as if its locations had been rewritten. The depth that a store allows is
enough for every tree in it, because what lies above an entry takes up an entry too.
-/

set_option autoImplicit false

namespace FileProvider.Memory

open Run (Ends)

variable {depth : Store → Nat} {s t : Store} {p q : Location} {n m : String}

/-! ## The walk -/

/-- A directory is put on top of one that receives it, entry by entry. -/
theorem ends_received {source target : Path} {conflict : Conflict} {d : Nat} {names old : List String}
    (hmerges : Merges depth conflict d) (hsource : source.location = p ++ [n])
    (htarget : target.location = q ++ [m]) (hapart : Location.Apart (p ++ [n]) (q ++ [m]))
    (hn : Name.isText n = true) (hdir : s.view (p ++ [n]) = some (.dir 0 names)) (ht : t.WellFormed)
    (hreceives : Store.Receives q m old s t) (hclear : ¬ s.Clash (p ++ [n]) (q ++ [m]))
    (hroom : (backendTo depth).roomForDir target conflict s = .ok () t)
    (hold : conflict = .overwrite ∨ old = []) :
    Ends ((backendTo depth).moveWalk (d + 1) source target conflict) s
      (fun _ u => s.Merged p n q m u ∧ ∀ r, ¬ s.Clash (p ++ [n] ++ r) (q ++ [m] ++ r))
      (fun _ => ∃ r, s.Clash (p ++ [n] ++ r) (q ++ [m] ++ r)) (¬ s.Shallow (p ++ [n]) (d + 1)) := by
  have hsame := hreceives.apart hapart
  have hstill : t.view (p ++ [n]) = some (.dir 0 names) := by
    have hnil := hsame []
    rwa [List.append_nil, hdir] at hnil
  have hclash : ∀ c r, t.Clash (p ++ [n] ++ c :: r) (q ++ [m] ++ c :: r) ↔
      s.Clash (p ++ [n] ++ c :: r) (q ++ [m] ++ c :: r) := fun c r =>
    Store.clash_congr (hsame (c :: r)) (hreceives.below c r)
  refine Ends.of_eq (moveWalk_of_room (hsource ▸ Store.isDir_of_view hdir) hroom ht
    (hsource ▸ Store.isDir_of_view hstill)) ?_
  rw [hsource, Store.names_of_view hstill]
  have hnew : conflict = .overwrite ∨ ∀ c ∈ names, c ∉ old := by
    refine hold.imp id fun hnil c _ => ?_
    simp [hnil]
  have hloop := ends_passing source target hmerges ht
    (by rw [hsource, List.append_nil, hstill]) (htarget ▸ hreceives.here) hnew
    fun a _ b _ => by rw [hsource, htarget]; exact hapart.append [a] [b]
  rw [hsource, htarget] at hloop
  refine Ends.bind (hloop.mono (fun _ u hu => ?_) (fun _ hu => ?_) fun hdeep hshallow => ?_)
  · obtain ⟨hwf, hpassed, hnot⟩ := hu
    -- The old directory is empty now, and it is removed.
    obtain ⟨ino, hempty⟩ := Store.find?_of_view_dir hpassed.keeping
    refine Ends.of_ok (run_removeDir hsource hn hempty) ⟨?_, fun r => ?_⟩
    · refine Store.merged_remove (hwf.remove (Store.names_of_find? hempty)) hapart (fun r => ?_)
        fun k hks hkt => ?_
      · cases r with
        | nil => rw [List.append_nil, List.append_nil, hpassed.holding, hdir, hreceives.names]
        | cons c r => rw [hpassed.merged ht hapart hstill, hsame, hreceives.below]
      · rw [← hreceives.other k hkt]
        refine hpassed.other k ?_ ?_ fun c _ => ⟨?_, ?_⟩
        · exact fun heq => hks (heq ▸ List.prefix_refl _)
        · exact fun heq => hkt (heq ▸ List.prefix_refl _)
        · exact fun hp => hks ((List.prefix_append _ _).trans hp)
        · exact fun hp => hkt ((List.prefix_append _ _).trans hp)
    · cases r with
      | nil => rwa [List.append_nil, List.append_nil]
      | cons c r =>
        rw [← hclash]
        by_cases hc : c ∈ names
        · exact hnot c hc r
        · apply Store.not_clash_of_none_left
          rw [List.append_cons]
          apply ht.none_below
          rwa [← Option.not_isSome_iff_eq_none, ht.listed, Store.names_of_view hstill]
  · obtain ⟨c, _, r, hr⟩ := hu
    exact ⟨c :: r, (hclash c r).mp hr⟩
  · exact hdeep fun c _ => hshallow.child fun r => hsame (c :: r)

/-- A walk with any depth limit merges trees, as deep as it may go. -/
theorem merges (conflict : Conflict) (d : Nat) : Merges depth conflict d := by
  induction d with
  | zero =>
    intro s p q n m source target h _ _ _ hsome _ _ _
    exact Store.not_shallow_zero hsome
  | succ d ih =>
    intro s p q n m source target h hsource htarget hapart hsome hfree htext hq
    have hne : p ++ [n] ≠ q ++ [m] := fun heq => hapart.not_within (heq ▸ List.prefix_refl _)
    have hm : IsName m := target.isName_of_location htarget htext
    have hn : Name.isText n = true := h.isText hsome
    obtain ⟨node, hnode⟩ := Option.isSome_iff_exists.mp hsome
    cases hpresent : s.find? (q ++ [m]) with
    | none =>
      have hclear : ∀ r, ¬ s.Clash (p ++ [n] ++ r) (q ++ [m] ++ r) := fun r =>
        Store.not_clash_of_none_right (h.none_below hpresent r)
      cases node with
      | file ino data =>
        refine Ends.of_ok (moveWalk_file htarget hpresent hsource hn hnode hne htext hq conflict) ⟨?_, hclear⟩
        exact Store.merged_file_new h hnode hapart hpresent (h.add hq hm hpresent rfl rfl)
      | dir ino names =>
        have hroot := hclear []
        rw [List.append_nil, List.append_nil] at hroot
        refine ends_received ih hsource htarget hapart hn (Store.view_of_find? hnode)
          (h.add hq hm hpresent rfl rfl) (Store.receives_add h hpresent) hroot ?_ (.inr rfl)
        rw [roomForDir_free htarget hpresent, run_createDir htarget hpresent htext hq]
    | some found =>
      obtain rfl : conflict = .overwrite := hfree.resolve_right (by simp [hpresent])
      by_cases hclash : s.Clash (p ++ [n]) (q ++ [m])
      · obtain ⟨e, he⟩ := moveWalk_clash (d := d) .overwrite
          (hsource.symm ▸ htarget.symm ▸ hclash)
        exact Ends.of_failed he ⟨[], by rwa [List.append_nil, List.append_nil]⟩
      · have hkind : node.isDir = found.isDir := by
          by_contra hkind
          exact hclash ⟨node, found, hnode, hpresent, hkind⟩
        cases node with
        | file ino data =>
          cases found with
          | dir ino' names => cases hkind
          | file ino' old =>
            refine Ends.of_ok (moveWalk_over h (by decide) hsource htarget hnode hpresent)
              ⟨Store.merged_file_over h hnode hapart hpresent, fun r => ?_⟩
            by_cases hr : r = []
            · rwa [hr, List.append_nil, List.append_nil]
            · exact Store.not_clash_of_none_left (h.none_below_empty (Store.names_of_find? hnode) hr)
        | dir ino names =>
          cases found with
          | file ino' old => cases hkind
          | dir ino' old =>
            exact ends_received ih hsource htarget hapart hn (Store.view_of_find? hnode) h
              (Store.receives_self h hpresent) hclash
              (roomForDir_overwrite (htarget ▸ ⟨ino', old, hpresent⟩)) (.inl rfl)

/-! ## The depth of a store -/

/-- No tree in a well-formed store is deeper than the store has entries. -/
theorem shallow_depth (h : s.WellFormed) (l : Location) : s.Shallow l (s.entries.length + 1) := by
  intro r hr
  -- The locations between `l` and the entry are all different, and all of them are taken.
  let places := (List.range (r.length + 1)).map fun i => l ++ r.take i
  have hnodup : places.Nodup := by
    refine List.Nodup.map_on (fun i hi j hj heq => ?_) List.nodup_range
    have hlen := congrArg List.length (List.append_cancel_left heq)
    rw [List.mem_range] at hi hj
    rwa [List.length_take, List.length_take, Nat.min_eq_left (Nat.le_of_lt_succ hi),
      Nat.min_eq_left (Nat.le_of_lt_succ hj)] at hlen
  have hsub : places ⊆ s.entries.map Prod.fst := by
    intro k hk
    obtain ⟨i, _, rfl⟩ := List.mem_map.mp hk
    refine (Catalogue.isSome_find? s.entries _).mp (h.isSome_above (r.drop i) ?_)
    rw [List.append_assoc, List.take_append_drop]
    exact hr
  have hlen := (hnodup.subperm hsub).length_le
  rw [List.length_map, List.length_range, List.length_map] at hlen
  exact Nat.lt_add_one_of_le (Nat.le_of_succ_le hlen)

section

variable {source target : Path} (h : s.WellFormed) (hsource : source.location = p ++ [n])
  (htarget : target.location = q ++ [m]) (hapart : Location.Apart (p ++ [n]) (q ++ [m]))
  (hsome : (s.find? (p ++ [n])).isSome = true)

include h hsource htarget hapart hsome

/-- A tree in a well-formed store can be merged with every one that lies apart and does not clash. -/
theorem ends_moveTree {conflict : Conflict} (hfree : conflict = .overwrite ∨ s.find? (q ++ [m]) = none)
    (hm : Name.isText m = true) (hq : s.IsDir q) :
    Ends (backend.moveTree source target conflict) s
      (fun _ t => s.Merged p n q m t ∧ ∀ r, ¬ s.Clash (p ++ [n] ++ r) (q ++ [m] ++ r))
      (fun _ => ∃ r, s.Clash (p ++ [n] ++ r) (q ++ [m] ++ r)) False := by
  refine Ends.mono (merges conflict (s.entries.length + 1) h hsource htarget hapart hsome hfree hm hq)
    (fun _ _ => id) (fun _ => id) ?_
  exact not_not_intro (shallow_depth h _)

/-- A tree in a well-formed store can be moved to any free place that lies apart from it. -/
theorem moveTree_free (hfree : s.find? (q ++ [m]) = none) (hm : Name.isText m = true) (hq : s.IsDir q) :
    ∃ t, backend.moveTree source target .refuse s = .ok () t ∧ s.Transferred p n q m t := by
  have hnone : ∀ r, s.find? (q ++ [m] ++ r) = none := h.none_below hfree
  have hends : Ends (backend.moveTree source target .refuse) s _ _ _ :=
    ends_moveTree h hsource htarget hapart hsome (.inr hfree) hm hq
  obtain ⟨_, t, ht, hmerged, _⟩ := (hends.mono (fun _ _ => id)
    (fun _ ⟨r, hr⟩ => Store.not_clash_of_none_right (hnone r) hr) id).eq_ok id
  exact ⟨t, ht, hmerged.transferred hnone⟩

end

end FileProvider.Memory
