import FileProvider.Proofs.Memory.Consumed
import FileProvider.Proofs.Memory.Endless
import FileProvider.Proofs.Memory.Upwards

/-!
# Moving between places that overlap

A move by copying does not compare its two places. Where one of them lies within the other, what is done
to the target is done to the source. An entry that is moved onto itself is lost, a directory that replaces
one above it is removed before it is moved, and a move below the source does not succeed. Files are safe
where the first checks stop the move, and where a directory is put on top of one above it without an
entry on the way. What is left of the files is not said where such an entry is a directory, nor where a
directory is put on top of one below it that is there already.
-/

set_option autoImplicit false

namespace FileProvider.Memory

open Run (Ends)

namespace Store

variable {s t : Store} {l q : Location} {m : String}

/-- Whether the first checks of a move stop it: nothing is at the source, what is at the target may not
give way or is of the other kind, or no entry can come to the target. -/
def Stops (s : Store) (source target : Location) (conflict : Conflict) : Prop :=
  s.find? source = none ∨ (conflict = .refuse ∧ (s.find? target).isSome = true) ∨
    s.Clash source target ∨ (s.find? target = none ∧ ¬ s.Admits target)

/-- A move that is not stopped has something to move, and at the target there is room or something of
the same kind. -/
theorem not_stops {source target : Location} {conflict : Conflict} (h : ¬ s.Stops source target conflict) :
    ∃ node, s.find? source = some node ∧
      ((s.find? target = none ∧ s.Admits target) ∨
        conflict ≠ .refuse ∧ ∃ found, s.find? target = some found ∧ node.isDir = found.isDir) := by
  simp only [Stops, not_or, not_and, not_not] at h
  obtain ⟨hsource, hrefuse, hclash, hparent⟩ := h
  obtain ⟨node, hnode⟩ := Option.ne_none_iff_exists'.mp hsource
  refine ⟨node, hnode, ?_⟩
  cases htarget : s.find? target with
  | none => exact .inl ⟨rfl, hparent htarget⟩
  | some found =>
    refine .inr ⟨fun hc => hrefuse hc (by rw [htarget]; rfl), found, rfl, ?_⟩
    by_contra hkind
    exact hclash ⟨node, found, hnode, htarget, hkind⟩

end Store

variable {depth : Store → Nat} {s : Store} {q : Location} {m : String} {source target : Path}
  {conflict : Conflict}

/-- A move that the first checks stop changes nothing. -/
theorem moveWalk_stops (d : Nat) (h : s.WellFormed)
    (hstops : s.Stops source.location target.location conflict) :
    ∃ e, (backendTo depth).moveWalk (d + 1) source target conflict s = .error (.failed e) s := by
  cases hsource : s.find? source.location with
  | none => exact ⟨_, moveWalk_missing hsource⟩
  | some node =>
    rcases hstops with hnone | ⟨rfl, htaken⟩ | hclash | ⟨hfree, hparent⟩
    · rw [hsource] at hnone
      cases hnone
    · exact moveWalk_taken (Option.isSome_iff_exists.mpr ⟨node, hsource⟩) htaken
    · exact moveWalk_clash conflict hclash
    · rcases Location.eq_nil_or_append target.location with hroot | ⟨q, m, htarget⟩
      · rw [hroot, ← Option.not_isSome_iff_eq_none] at hfree
        exact absurd h.root.isSome hfree
      · rw [htarget] at hfree hparent
        rcases holderOf_cases (q ++ [m]) s with ⟨e, he, -⟩ | ⟨q', m', hplace, hm, hq, -⟩
        · exact ⟨e, moveWalk_refused htarget hfree hsource he conflict⟩
        · exact absurd ⟨q', m', hplace, hm, hq⟩ hparent

/-! ## Into itself -/

/-- A directory is never done replacing one below itself. -/
theorem ends_replace_below (d : Nat) (h : s.WellFormed) {r : Location} (hr : r ≠ [])
    (hbelow : target.location = source.location ++ r) (hpresent : s.IsDir target.location) :
    Ends ((backendTo depth).moveWalk d source target .replace) s (fun _ _ => False) (fun _ => False)
      True := by
  cases d with
  | zero => exact trivial
  | succ d =>
    obtain ⟨q, m, htarget⟩ := Location.exists_eq_append (hbelow ▸ List.append_ne_nil_of_right_ne_nil _ hr)
    have hq : s.IsDir q := h.isDir_parent (htarget ▸ hpresent).isSome
    have hplace : q ++ [m] = source.location ++ r := htarget.symm.trans hbelow
    have hsource : s.IsDir source.location := h.isDir_of_place hr hplace hq
    have hremoval : Ends ((backendTo depth).removeTree target) s _ _ _ :=
      ends_removal h htarget (htarget ▸ hpresent)
    unfold Ends at hremoval
    cases hrun : (backendTo depth).removeTree target s with
    | ok a t =>
      -- The target is free now, and its parent is still there.
      rw [hrun] at hremoval
      obtain ⟨hwf, hremoved⟩ := hremoval
      have hq' : t.IsDir q := hremoved.isDir_parent hq
      refine Ends.of_eq (moveWalk_replace hpresent hrun htarget hremoved.free hsource
        (hwf.isDir_of_place hr hplace hq')) ?_
      have hm : Name.isText m = true := h.isText (htarget ▸ hpresent).isSome
      exact moveWalk_endless .replace (d + 1) hwf hr hbelow htarget hremoved.free hm hq'
    | error e t =>
      rw [hrun] at hremoval
      cases e with
      | failed e => exact hremoval.elim
      | exhausted =>
        obtain ⟨ino, names, hsource⟩ := hsource
        refine Ends.of_eq (moveWalk_of_dir .replace hsource) (Ends.bind ?_)
        refine Ends.of_eq (roomForDir_replace hpresent) (Ends.bind ?_)
        rw [Ends, hrun]
        trivial

/-- A move below the source that is not stopped does not succeed, and to a free place or in place of
another directory it does not end. -/
theorem ends_below (d : Nat) (h : s.WellFormed) {r : Location} (hr : r ≠ [])
    (hbelow : target.location = source.location ++ r)
    (hgoes : ¬ s.Stops source.location target.location conflict) :
    Ends ((backendTo depth).moveWalk d source target conflict) s (fun _ _ => False)
      (fun _ => (s.find? target.location).isSome = true ∧ conflict ≠ .replace) True := by
  obtain ⟨node, hnode, hplace⟩ := Store.not_stops hgoes
  rcases hplace with ⟨hfree, hparent⟩ | ⟨hc, found, hfound, hkind⟩
  · obtain ⟨q, m, htarget⟩ := Location.exists_eq_append (hbelow ▸ List.append_ne_nil_of_right_ne_nil _ hr)
    rw [htarget] at hfree hparent
    obtain ⟨hm, hq⟩ := admits_child.mp hparent
    exact (moveWalk_endless conflict d h hr hbelow htarget hfree hm hq).mono (fun _ _ => id)
      (fun _ => False.elim) id
  · have hsome : (s.find? target.location).isSome = true := Option.isSome_iff_exists.mpr ⟨found, hfound⟩
    -- What has something below it is a directory, and so is what is of its kind.
    have hpresent : s.IsDir target.location := by
      obtain ⟨ino, names, hdir⟩ := h.isDir_above r hr (hbelow ▸ hsome)
      rw [hdir] at hnode
      cases hnode
      exact Store.isDir_iff.mpr ⟨found, hfound, hkind.symm⟩
    cases conflict with
    | refuse => exact absurd rfl hc
    | overwrite =>
      exact (moveWalk_over_below d h hr hbelow hpresent).mono (fun _ _ => id)
        (fun _ _ => ⟨hsome, by decide⟩) id
    | replace =>
      exact (ends_replace_below d h hr hbelow hpresent).mono (fun _ _ => id) (fun _ => False.elim) id

/-! ## How such a move ends -/

/-- A source below a target of the same kind is a directory. -/
theorem isDir_of_above (h : s.WellFormed) {c : String} {r : Location}
    (hplace : source.location = target.location ++ c :: r)
    (hgoes : ¬ s.Stops source.location target.location conflict) :
    s.IsDir source.location ∧ conflict ≠ .refuse := by
  obtain ⟨node, hnode, htarget⟩ := Store.not_stops hgoes
  obtain ⟨ino, names, habove⟩ := h.isDir_above (l := target.location) (c :: r) (List.cons_ne_nil c r)
    (by rw [← hplace, hnode]; rfl)
  rcases htarget with ⟨hfree, _⟩ | ⟨hc, found, hfound, hkind⟩
  · rw [habove] at hfree
    cases hfree
  · rw [habove] at hfound
    cases hfound
    exact ⟨Store.isDir_iff.mpr ⟨node, hnode, hkind⟩, hc⟩

/-- What a move by copying does when one of its places lies within the other, in every store that can come
about. If the first checks stop it, nothing changes. Otherwise an entry that is moved onto itself
is lost, which but for the root counts as a success; a move below the source does not succeed, and to a
free place or in place of another directory it does not end either, whatever the depth limit is; and a
directory that is to replace one above it is lost with everything in that. All files are kept by a move on
top of a directory above, if the source has no directory with the name of the entry on the way to it. Two
cases are left open: what becomes of files if it has one, and in a move on top of a directory below. -/
theorem move_overlapping {a : Session} (ha : a.Reachable) (source target : Path) (conflict : Conflict) :
    (a.store.Stops source.location target.location conflict →
      ∃ e, (backend.moveTree source target conflict).outcome a.store = some (.error e, a.store)) ∧
    (¬ a.store.Stops source.location target.location conflict →
      (target.location = source.location →
        ∃ r t, (backend.moveTree source target conflict).outcome a.store = some (r, t) ∧
          (r = .ok () ↔ source.location ≠ []) ∧ t.NoFiles source.location) ∧
      (∀ rest, rest ≠ [] → target.location = source.location ++ rest → ∀ depth,
        (∀ t, ((backendTo depth).moveTree source target conflict).outcome a.store ≠ some (.ok (), t)) ∧
        (a.store.find? target.location = none ∨ conflict = .replace →
          ((backendTo depth).moveTree source target conflict).outcome a.store = none)) ∧
      (∀ c rest, source.location = target.location ++ c :: rest →
        (conflict = .replace →
          ∃ e t, (backend.moveTree source target conflict).outcome a.store = some (.error e, t) ∧
            t.NoFiles target.location) ∧
        (conflict = .overwrite → ¬ a.store.IsDir (source.location ++ [c]) →
          ∃ r t, (backend.moveTree source target conflict).outcome a.store = some (r, t) ∧
            a.store.Kept source.location target.location t))) := by
  have h := ha.sound.store
  generalize a.store = s at h ⊢
  refine ⟨fun hstops => ?_, fun hgoes => ⟨fun hsame => ?_, fun rest hrest hbelow depth => ?_,
    fun c rest hplace => ⟨?_, ?_⟩⟩⟩
  · obtain ⟨e, he⟩ := moveWalk_stops s.entries.length h hstops
    exact ⟨e, Run.outcome_failed he⟩
  · obtain ⟨node, hnode, htarget⟩ := Store.not_stops hgoes
    have hc : conflict ≠ .refuse := by
      rcases htarget with ⟨hfree, _⟩ | ⟨hc, _⟩
      · rw [hsame, hnode] at hfree
        cases hfree
      · exact hc
    exact moveTree_onto_self h hsame hc (Option.isSome_iff_exists.mpr ⟨node, hnode⟩)
  · have hends : Ends ((backendTo depth).moveTree source target conflict) s _ _ True :=
      ends_below (depth s) h hrest hbelow hgoes
    refine ⟨hends.not_ok (), fun hfree => ?_⟩
    refine (hends.mono (fun _ _ => id) (fun _ hbad => ?_) id).outcome_none
    rcases hfree with hnone | hc
    · exact absurd hbad.1 (Option.not_isSome_iff_eq_none.mpr hnone)
    · exact hbad.2 hc
  · rintro rfl
    have hends := ends_replace_above h hplace (isDir_of_above h hplace hgoes).1
    rcases hends.outcome_cases with ⟨_, t, _, ⟨hnil, _⟩, _⟩ | ⟨e, t, hrun, _, hnone⟩
    · cases hnil
    · exact ⟨e, t, hrun, hnone⟩
  · rintro rfl hway
    exact (ends_over_above h hplace (isDir_of_above h hplace hgoes).1 hway).outcome

/-- A file that is moved onto itself is lost. -/
theorem move_overlapping_itself :
    ∃ a : Session, a.Reachable ∧ a.store.HasFile ["f"] [7] ∧
      ∃ t, (backend.moveTree ⟨"/f"⟩ ⟨"/./f"⟩ .overwrite).outcome a.store = some (.ok (), t) ∧
        t.NoFiles ["f"] := by
  have h : Session.Reachable ⟨_, _⟩ := .step .start (.call (.write ⟨"/f"⟩ [7]) _ _)
  have hsource : Path.location ⟨"/f"⟩ = ["f"] := by decide +kernel
  have htarget : Path.location ⟨"/./f"⟩ = ["f"] := by decide +kernel
  have hfile : ((backend.call (.write ⟨"/f"⟩ [7])).outcome Store.empty).2.find? ["f"]
      = some (.file 2 [7]) := by decide +kernel
  have hgoes : ¬ ((backend.call (.write ⟨"/f"⟩ [7])).outcome Store.empty).2.Stops
      (Path.location ⟨"/f"⟩) (Path.location ⟨"/./f"⟩) .overwrite := by
    rw [hsource, htarget]
    rintro (hfree | ⟨hc, _⟩ | ⟨node, found, hnode, hfound, hne⟩ | ⟨hfree, _⟩)
    · rw [hfile] at hfree
      cases hfree
    · cases hc
    · cases hnode.symm.trans hfound
      exact hne rfl
    · rw [hfile] at hfree
      cases hfree
  obtain ⟨r, t, hrun, hok, hnone⟩ :=
    ((move_overlapping h ⟨"/f"⟩ ⟨"/./f"⟩ .overwrite).2 hgoes).1 (htarget.trans hsource.symm)
  rw [hsource] at hok hnone
  rw [hok.mpr (List.cons_ne_nil _ _)] at hrun
  exact ⟨_, h, ⟨2, hfile⟩, t, hrun, hnone⟩

end FileProvider.Memory
