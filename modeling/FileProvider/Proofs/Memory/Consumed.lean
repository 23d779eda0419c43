import FileProvider.Proofs.Memory.Conflict
import FileProvider.Proofs.Memory.Conserved

/-!
# Moves that lose what they move

An entry that is moved onto itself is written to its own place and then removed from there. A directory
that replaces itself or one above it is removed with the old target, before anything of it was moved.
-/

set_option autoImplicit false

namespace FileProvider.Memory

open Run (Ends)

namespace Store

variable {s t : Store} {l q : Location} {m : String}

/-- Whether there is no file at a location or below it. -/
def NoFiles (s : Store) (l : Location) : Prop := ∀ r data, ¬ s.HasFile (l ++ r) data

theorem WellFormed.noFiles (h : s.WellFormed) (hl : s.view l = some (.dir 0 [])) : s.NoFiles l := by
  obtain ⟨ino, hl⟩ := find?_of_view_dir hl
  exact not_hasFile_of_empty h hl

theorem Removed.noFiles (h : Removed q m s t) : t.NoFiles (q ++ [m]) := by
  rintro r data ⟨ino, hfile⟩
  have hgone := h.gone r
  rw [view_of_find? hfile] at hgone
  cases hgone

end Store

variable {depth : Store → Nat} {s : Store} {q : Location} {m : String} {source target : Path}
  {conflict : Conflict}

/-! ## Onto itself -/

/-- Whether a walk with a depth limit, on every well-formed store, removes what is put on top of itself,
unless it is deeper than the limit. -/
def Consumes (depth : Store → Nat) (d : Nat) : Prop :=
  ∀ {s : Store} {q : Location} {m : String} {source target : Path}, s.WellFormed →
    source.location = q ++ [m] → target.location = q ++ [m] → (s.find? (q ++ [m])).isSome = true →
    Ends ((backendTo depth).moveWalk d source target .overwrite) s
      (fun _ t => t.WellFormed ∧ s.Removed q m t) (fun _ => False) (¬ s.Shallow (q ++ [m]) d)

/-- A directory that is put on top of itself is first emptied, be it the root. -/
theorem ends_consumed {d : Nat} (hconsumes : Consumes depth d) (h : s.WellFormed)
    (hsame : target.location = source.location) (hdir : s.IsDir source.location)
    {ok : Unit → Store → Prop} {bad : Store → Prop}
    (hlast : ∀ t : Store, t.WellFormed → s.Clearing source.location [] t →
      Ends ((backendTo depth).run (.removeDir source)) t ok bad False) :
    Ends ((backendTo depth).moveWalk (d + 1) source target .overwrite) s ok bad
      (¬ s.Shallow source.location (d + 1)) := by
  have hroom : (backendTo depth).roomForDir target .overwrite s = .ok () s :=
    roomForDir_overwrite (by rwa [hsame])
  refine Ends.of_eq (moveWalk_of_room hdir hroom h hdir) ?_
  obtain ⟨ino, names, hdir⟩ := hdir
  rw [Store.names_of_find? hdir]
  have hview : s.view source.location = some (.dir 0 (names.map id)) := by
    rw [Store.view_of_find? hdir, List.map_id]
    rfl
  refine Ends.andThen (ends_clearing id _ h hview fun c hc t ht hstill => ?_) (fun _ => False.elim)
    fun _ t ⟨ht, hclearing⟩ => (hlast t ht hclearing).mono (fun _ _ => id) (fun _ => id) False.elim
  have hlisted : (s.find? (source.location ++ [c])).isSome = true :=
    (h.listed _ _).mpr (Store.mem_names_iff.mpr ⟨ino, names, hdir, hc⟩)
  have hname : IsName c := h.isName ((h.listed _ _).mp hlisted)
  have hsome : (t.find? (source.location ++ [c])).isSome = true := by
    rw [← Store.isSome_view, ← hlisted, ← Store.isSome_view]
    exact congrArg Option.isSome (hstill [])
  refine (hconsumes ht (source.location_join hname) ?_ hsome).mono (fun _ _ => id) (fun _ => id) ?_
  · rw [target.location_join hname, hsame]
  · exact fun hdeep hshallow => hdeep (hshallow.child hstill)

/-- A file that is moved onto itself is written once more and then deleted. -/
theorem moveWalk_file_onto_self {d : Nat} {ino : Nat} {data : Bytes} (h : s.WellFormed)
    (hc : conflict ≠ .refuse) (hsource : source.location = q ++ [m]) (htarget : target.location = q ++ [m])
    (hfile : s.find? (q ++ [m]) = some (.file ino data)) :
    ∃ t, (backendTo depth).moveWalk (d + 1) source target conflict s = .ok () t ∧ t.WellFormed ∧
      s.Removed q m t := by
  have hput : (s.put (q ++ [m]) (.file ino data)).WellFormed := h.put_file hfile
  have hempty : (s.put (q ++ [m]) (.file ino data)).names (q ++ [m]) = [] := by
    have hfind : (s.put (q ++ [m]) (.file ino data)).find? (q ++ [m]) = some (.file ino data) := by
      rw [Store.find?_put, if_pos rfl]
    exact Store.names_of_find? hfind
  have hremoved := hput.removed hempty
  refine ⟨_, moveWalk_over h hc hsource htarget hfile hfile, hput.remove hempty, hremoved.gone,
    fun k hk => ?_⟩
  have hne : k ≠ q ++ [m] := fun heq => hk (heq ▸ List.prefix_refl _)
  rw [hremoved.other k hk, Store.view, Store.find?_put, if_neg hne, Store.view]

/-- A walk with any depth limit removes what is put on top of itself, as deep as it may go. -/
theorem consumes (d : Nat) : Consumes depth d := by
  induction d with
  | zero =>
    intro s q m source target _ _ _ hsome
    exact Store.not_shallow_zero hsome
  | succ d ih =>
    intro s q m source target h hsource htarget hsome
    obtain ⟨node, hnode⟩ := Option.isSome_iff_exists.mp hsome
    cases node with
    | file ino data =>
      have hc : Conflict.overwrite ≠ .refuse := by decide
      obtain ⟨t, ht, hwf, hremoved⟩ := moveWalk_file_onto_self h hc hsource htarget hnode
      exact Ends.of_ok ht ⟨hwf, hremoved⟩
    | dir ino names =>
      rw [← hsource]
      refine ends_consumed ih h (htarget.trans hsource.symm) (hsource ▸ ⟨ino, names, hnode⟩)
        fun t ht hclearing => ?_
      rw [hsource] at hclearing
      obtain ⟨ino, hempty⟩ := Store.find?_of_view_dir hclearing.listing
      exact Ends.of_ok (run_removeDir hsource (h.isText hsome) hempty)
        ⟨ht.remove (Store.names_of_find? hempty), hclearing.removed ht⟩

/-- The root is not removed, not even when it is empty. -/
theorem run_removeDir_root {path : Path} (hpath : path.location = [])
    (h : s.view [] = some (.dir 0 [])) :
    (backendTo depth).run (.removeDir path) s
      = .error (.failed (.invalidPath "root has no parent")) s := by
  obtain ⟨ino, h⟩ := Store.find?_of_view_dir h
  refine run_of_error ?_
  rw [call, hpath, removeDir_apply, h]
  rfl

/-! ## Replacing what holds the source -/

/-- Replacing the root fails when everything in it was removed. -/
theorem ends_replace_root (h : s.WellFormed) (htarget : target.location = []) :
    Ends (backend.roomForDir target .replace) s (fun _ _ => False) (fun t => t.NoFiles []) False := by
  have hroot : s.IsDir target.location := htarget ▸ h.root
  have hremove : Ends (backend.removeTree target) s (fun _ _ => False) (fun t => t.NoFiles [])
      (¬ s.Shallow target.location (s.entries.length + 1)) := by
    refine ends_emptied (removes s.entries.length) h hroot
      fun t ht hclearing => ?_
    rw [htarget] at hclearing
    exact Ends.of_failed (run_removeDir_root htarget hclearing.listing) (ht.noFiles hclearing.listing)
  refine Ends.of_eq (roomForDir_replace hroot) (Ends.bind ?_)
  exact hremove.mono (fun _ _ => False.elim) (fun _ => id) fun hdeep => hdeep (shallow_depth h _)

/-- Replacing any other directory leaves an empty one. -/
theorem roomForDir_replaced (h : s.WellFormed) (htarget : target.location = q ++ [m])
    (hpresent : s.IsDir (q ++ [m])) :
    ∃ t, backend.roomForDir target .replace s = .ok () t ∧ t.WellFormed ∧
      t.view (q ++ [m]) = some (.dir 0 []) := by
  have hremoval : Ends ((backendTo backend.depth).removeTree target) s
      (fun _ t => t.WellFormed ∧ s.Removed q m t) (fun _ => False)
      (¬ s.Shallow (q ++ [m]) (s.entries.length + 1)) := ends_removal h htarget hpresent
  obtain ⟨_, t, ht, hwf, hremoved⟩ := hremoval.eq_ok (not_not_intro (shallow_depth h _))
  have hq : t.IsDir q := hremoved.isDir_parent (h.isDir_parent hpresent.isSome)
  have htext : Name.isText m = true := h.isText hpresent.isSome
  have hm : IsName m := target.isName_of_location htarget htext
  refine ⟨t.add q m fun ino => .dir ino [], ?_, hwf.add hq hm hremoved.free rfl rfl, ?_⟩
  · rw [← backendTo_depth, roomForDir_replace (htarget ▸ hpresent), bind_apply, ht]
    exact run_createDir htarget hremoved.free htext hq
  · exact Store.view_add_self q m _

/-- A directory that replaces itself or one above it is gone before it is moved. -/
theorem ends_replace_above (h : s.WellFormed) {r : Location}
    (hbelow : source.location = target.location ++ r) (hdir : s.IsDir source.location) :
    Ends (backend.moveTree source target .replace) s
      (fun _ t => (r = [] ∧ target.location ≠ []) ∧ t.NoFiles target.location)
      (fun t => (r ≠ [] ∨ target.location = []) ∧ t.NoFiles target.location) False := by
  have hpresent : s.IsDir target.location := h.isDir_of_append r (hbelow ▸ hdir)
  obtain ⟨ino, names, hsource⟩ := hdir
  refine Ends.of_eq (moveWalk_of_dir (d := s.entries.length) .replace hsource) ?_
  rcases Location.eq_nil_or_append target.location with hroot | ⟨q, m, htarget⟩
  · refine Ends.bind ((ends_replace_root h hroot).mono (fun _ _ => False.elim) (fun t ht => ?_) id)
    exact ⟨.inr hroot, hroot ▸ ht⟩
  · obtain ⟨t, ht, hwf, hempty⟩ := roomForDir_replaced h htarget (htarget ▸ hpresent)
    have hnone : t.NoFiles (q ++ [m]) := hwf.noFiles hempty
    have htext : Name.isText m = true := h.isText (htarget ▸ hpresent.isSome)
    rw [htarget] at hbelow ⊢
    refine Ends.bind (Ends.of_ok ht ?_)
    by_cases hr : r = []
    · -- The source is the new directory, in which there is nothing to move.
      rw [hr, List.append_nil] at hbelow
      obtain ⟨ino', hfind⟩ := Store.find?_of_view_dir hempty
      obtain ⟨entries, hlist, hnames⟩ := run_list hwf (hbelow ▸ hfind)
      obtain rfl := List.map_eq_nil_iff.mp hnames
      refine Ends.bind (Ends.of_ok hlist (Ends.of_ok (run_removeDir hbelow htext hfind) ?_))
      exact ⟨⟨hr, List.concat_ne_nil m q⟩,
        (hwf.removed (Store.names_of_find? hfind)).noFiles⟩
    · have hgone : t.find? source.location = none := by
        rw [hbelow]
        exact hwf.none_below_empty (Store.names_of_view hempty) hr
      have hlist : (backendTo backend.depth).run (.list source) t
          = .error (.failed (.notFound source.location.text)) t :=
        run_of_error (by rw [call, list_apply, hgone])
      exact Ends.bind (Ends.of_failed hlist ⟨.inl hr, hnone⟩)

/-- What is moved onto itself is lost, and but for the root that counts as a success. -/
theorem moveTree_onto_self (h : s.WellFormed) (hsame : target.location = source.location)
    (hc : conflict ≠ .refuse) (hsome : (s.find? source.location).isSome = true) :
    ∃ r t, (backend.moveTree source target conflict).outcome s = some (r, t) ∧
      (r = .ok () ↔ source.location ≠ []) ∧ t.NoFiles source.location := by
  have hends : Ends (backend.moveTree source target conflict) s
      (fun _ t => source.location ≠ [] ∧ t.NoFiles source.location)
      (fun t => source.location = [] ∧ t.NoFiles source.location) False := by
    obtain ⟨node, hnode⟩ := Option.isSome_iff_exists.mp hsome
    cases node with
    | file ino data =>
      have hne : source.location ≠ [] := by
        intro hroot
        obtain ⟨ino', names, hdir⟩ := h.root
        rw [hroot, hdir] at hnode
        cases hnode
      obtain ⟨q, m, hsource⟩ := Location.exists_eq_append hne
      obtain ⟨t, ht, _, hremoved⟩ := moveWalk_file_onto_self (d := s.entries.length) h hc hsource
        (hsame.trans hsource) (hsource ▸ hnode)
      exact Ends.of_ok ht ⟨hne, hsource ▸ hremoved.noFiles⟩
    | dir ino names =>
      have hdir : s.IsDir source.location := ⟨ino, names, hnode⟩
      cases conflict with
      | refuse => exact absurd rfl hc
      | replace =>
        refine (ends_replace_above h (by rw [hsame, List.append_nil]) hdir).mono (fun _ t ht => ?_)
          (fun t ht => ?_) id
        · exact ⟨hsame ▸ ht.1.2, hsame ▸ ht.2⟩
        · exact ⟨hsame ▸ ht.1.resolve_left (not_not_intro rfl), hsame ▸ ht.2⟩
      | overwrite =>
        refine Ends.mono (ends_consumed (consumes s.entries.length) h hsame hdir
          fun t ht hclearing => ?_) (fun _ _ => id) (fun _ => id)
          fun hdeep => hdeep (shallow_depth h source.location)
        -- Only the root stays, empty.
        have hlisting := hclearing.listing
        rcases Location.eq_nil_or_append source.location with hroot | ⟨q, m, hsource⟩
        · rw [hroot] at hlisting ⊢
          exact Ends.of_failed (run_removeDir_root hroot hlisting) ⟨rfl, ht.noFiles hlisting⟩
        · rw [hsource] at hclearing hlisting ⊢
          obtain ⟨ino, hempty⟩ := Store.find?_of_view_dir hlisting
          exact Ends.of_ok (run_removeDir hsource (h.isText (hsource ▸ hsome)) hempty)
            ⟨List.concat_ne_nil m q, (hclearing.removed ht).noFiles⟩
  rcases hends.outcome_cases with ⟨_, t, hrun, hroot, hnone⟩ | ⟨e, t, hrun, hroot, hnone⟩
  · exact ⟨_, t, hrun, iff_of_true rfl hroot, hnone⟩
  · exact ⟨_, t, hrun, iff_of_false (fun heq => by cases heq) (not_not_intro hroot), hnone⟩

end FileProvider.Memory
