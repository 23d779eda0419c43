import FileProvider.Proofs.Memory.Move

/-!
# Moving a directory into itself

A move by copying does not notice that its target lies below its source. It creates the target and
then lists the source, which now leads to the target; the entry on the way there is to be moved below itself
in turn. So the walk reaches every depth limit, whatever the limit is. Where a directory is at the target
already, only an entry that is in the way can stop it.
-/

set_option autoImplicit false

namespace FileProvider.Memory

open Run (Ends)

variable {depth : Store → Nat} {s : Store} {source target : Path} {q : Location} {m : String}

/-- A directory that is moved below itself lists the entry on the way to its target. It is as good or bad
as the turn of that entry, before which the others that it lists first have passed. -/
theorem ends_entries_below {t : Store} {d : Nat} {conflict : Conflict} {c : String} {r : Location}
    {old : List String} {bad : Store → Prop} (ht : t.WellFormed)
    (hbelow : target.location = source.location ++ c :: r)
    (htarget : t.view target.location = some (.dir 0 old))
    (hroom : (conflict = .overwrite ∧ ∀ u, bad u) ∨ old = [])
    (hturn : ∀ u : Store, u.WellFormed → u.IsDir target.location →
      (old = [] → u.find? (target.location ++ [c]) = none) →
      Ends ((backendTo depth).moveWalk d (source.join c) (target.join c) conflict) u (fun _ _ => False)
        bad True) :
    Ends ((t.names source.location).forM (fun a =>
        (backendTo depth).moveWalk d (source.join a) (target.join a) conflict) >>= fun _ =>
        (backendTo depth).run (.removeDir source)) t (fun _ _ => False) bad True := by
  have hsome : (t.find? (source.location ++ c :: r)).isSome = true :=
    hbelow ▸ (Store.isDir_of_view htarget).isSome
  obtain ⟨ino, names, hdir⟩ := ht.isDir_above (c :: r) (List.cons_ne_nil c r) hsome
  have hlisted := ht.listed_above hsome
  rw [Store.names_of_find? hdir] at hlisted ⊢
  obtain ⟨before, after, hnames⟩ := List.append_of_mem hlisted
  change names = before ++ c :: after at hnames
  have hnodup : (before ++ c :: after).Nodup := hnames ▸ ht.once _ _ hdir
  have hbefore : c ∉ before := fun hmem =>
    (List.nodup_append.mp hnodup).2.2 c hmem c List.mem_cons_self rfl
  have hview : t.view source.location = some (.dir 0 (before ++ c :: after)) := by
    rw [Store.view_of_find? hdir, hnames]
    rfl
  have hapart : ∀ a ∈ before, ∀ b ∈ before,
      Location.Apart (source.location ++ [a]) (target.location ++ [b]) := by
    intro a ha b _
    have hac : a ≠ c := fun heq => hbefore (heq ▸ ha)
    rw [hbelow, List.append_assoc, List.cons_append]
    exact Location.apart_child source.location hac [] (r ++ [b])
  have hnew : conflict = .overwrite ∨ ∀ a ∈ before, a ∉ old := by
    refine hroom.imp And.left fun hnil a _ => ?_
    simp [hnil]
  -- An entry can only clash with what was there already.
  have hclash : ∀ u : Store,
      (∃ a ∈ before, ∃ k, t.Clash (source.location ++ a :: k) (target.location ++ a :: k)) → bad u := by
    rintro u ⟨a, _, k, hclash⟩
    refine hroom.elim (fun h => h.2 u) fun hnil => ?_
    have hnone := ht.none_below_empty (Store.names_of_view (hnil ▸ htarget)) (List.cons_ne_nil a k)
    exact absurd hclash (Store.not_clash_of_none_right hnone)
  change Ends (names.forM _ >>= _) _ _ _ _
  rw [hnames, forM_append, bind_assoc]
  refine Ends.bind ((ends_passing source target (merges conflict d) ht hview htarget hnew hapart).mono
    (fun _ u hu => ?_) hclash fun _ => trivial)
  obtain ⟨hwf, hpassed, _⟩ := hu
  rw [forM_cons, bind_assoc]
  refine Ends.bind ((hturn u hwf (Store.isDir_of_view hpassed.holding) fun hnil => ?_).mono
    (fun _ _ => False.elim) (fun _ => id) id)
  rw [← Option.not_isSome_iff_eq_none, hwf.listed, Store.names_of_view hpassed.holding]
  simpa [hnil] using hbefore

/-- What was on the way to a place below is on the way from the entry on the way. -/
theorem location_join_below {c : String} {r : Location} (hc : IsName c)
    (hbelow : target.location = source.location ++ c :: r) :
    (target.join c).location = (source.join c).location ++ (r ++ [c]) := by
  rw [target.location_join hc, source.location_join hc, hbelow, List.append_assoc, List.append_assoc]
  rfl

/-- A directory is never done being moved to a free place below itself, whatever is to become of what is
in the way. -/
theorem moveWalk_endless (conflict : Conflict) (d : Nat) (h : s.WellFormed) {r : Location} (hr : r ≠ [])
    (hbelow : target.location = source.location ++ r) (htarget : target.location = q ++ [m])
    (hfree : s.find? (q ++ [m]) = none) (htext : Name.isText m = true) (hq : s.IsDir q) :
    Ends ((backendTo depth).moveWalk d source target conflict) s (fun _ _ => False) (fun _ => False)
      True := by
  induction d generalizing s source target r q m with
  | zero => exact trivial
  | succ d ih =>
    obtain ⟨c, r, rfl⟩ := List.exists_cons_of_ne_nil hr
    have hm : IsName m := target.isName_of_location htarget htext
    have hadd : (s.add q m fun ino => .dir ino []).WellFormed := h.add hq hm hfree rfl rfl
    have hempty : (s.add q m fun ino => .dir ino []).view target.location = some (.dir 0 []) := by
      rw [htarget, Store.view_add_self]
      rfl
    have hnew : ((s.add q m fun ino => .dir ino []).find? (source.location ++ c :: r)).isSome = true := by
      rw [← hbelow]
      exact (Store.isDir_of_view hempty).isSome
    -- The source is a directory, before and after the target was created.
    have hsource : s.IsDir source.location := h.isDir_of_place hr (htarget.symm.trans hbelow) hq
    have hstill : (s.add q m fun ino => .dir ino []).IsDir source.location :=
      hadd.isDir_above (c :: r) hr hnew
    have hc : IsName c := hadd.isName (hadd.listed_above hnew)
    refine Ends.of_eq (moveWalk_dir htarget hfree h hsource hm hq hstill conflict) ?_
    refine ends_entries_below hadd hbelow hempty (.inr rfl) fun u hwf hdir hnone => ?_
    exact ih hwf (List.concat_ne_nil c r) (location_join_below hc hbelow) (target.location_join hc)
      (hnone rfl) hc.isText hdir

/-- A directory that is put on top of one below itself is never done, unless it is refused on the way. -/
theorem moveWalk_over_below (d : Nat) (h : s.WellFormed) {r : Location} (hr : r ≠ [])
    (hbelow : target.location = source.location ++ r) (hpresent : s.IsDir target.location) :
    Ends ((backendTo depth).moveWalk d source target .overwrite) s (fun _ _ => False) (fun _ => True)
      True := by
  induction d generalizing s source target r with
  | zero => exact trivial
  | succ d ih =>
    obtain ⟨c, r, rfl⟩ := List.exists_cons_of_ne_nil hr
    have hsome : (s.find? (source.location ++ c :: r)).isSome = true := hbelow ▸ hpresent.isSome
    have hsource : s.IsDir source.location := h.isDir_above (c :: r) hr hsome
    have hc : IsName c := h.isName (h.listed_above hsome)
    refine Ends.of_eq (moveWalk_of_room hsource (roomForDir_overwrite hpresent) h hsource) ?_
    obtain ⟨ino, old, hdir⟩ := hpresent
    refine ends_entries_below h hbelow (Store.view_of_find? hdir) (.inl ⟨rfl, fun _ => trivial⟩)
      fun u hwf hstill _ => ?_
    -- The new target of the entry on the way is free, in the way, or another directory below it.
    have hplace := target.location_join hc
    cases hfound : u.find? (target.location ++ [c]) with
    | none =>
      exact (moveWalk_endless .overwrite d hwf (List.concat_ne_nil c r) (location_join_below hc hbelow)
        hplace hfound hc.isText hstill).mono (fun _ _ => id) (fun _ _ => trivial) id
    | some node =>
      cases node with
      | dir ino names =>
        exact ih hwf (List.concat_ne_nil c r) (location_join_below hc hbelow)
          (hplace ▸ ⟨ino, names, hfound⟩)
      | file ino data =>
        cases d with
        | zero => exact trivial
        | succ d =>
          have hrest := location_join_below hc hbelow
          rw [hplace] at hrest
          obtain ⟨ino', names, hway⟩ := hwf.isDir_of_place (List.concat_ne_nil c r) hrest hstill
          have hclash : u.Clash (source.join c).location (target.join c).location :=
            ⟨_, _, hway, by rw [hplace, hfound], Bool.noConfusion⟩
          obtain ⟨e, he⟩ := moveWalk_clash (d := d) .overwrite hclash
          exact Ends.of_failed he trivial

end FileProvider.Memory
