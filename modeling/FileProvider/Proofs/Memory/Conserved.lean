import FileProvider.Proofs.Memory.Faults
import FileProvider.Proofs.Memory.Session

/-!
# Moving while calls fail

A move by copying can be cut at any call, in every mode for what is already at the target. Whatever
happens, every file of the source stays at its old place or is at its new one, and nothing outside the
two places differs. The loop over the entries keeps this, because an entry that the loop has not come to
is still at its old place.
-/

set_option autoImplicit false

namespace FileProvider.Memory

open Run (Ends)

namespace Store

variable {s t u : Store} {p q : Location} {n m c : String}

/-- What a move may do, done or not: every file of the source is at its old or its new place, and outside
the two places nothing differs. -/
structure Conserved (p : Location) (n : String) (q : Location) (m : String) (s t : Store) : Prop where
  wf : t.WellFormed
  /-- Outside the two places nothing differs. -/
  aside : s.Aside p n q m t
  /-- No file of the source is lost. -/
  files : ∀ r data, s.HasFile (p ++ [n] ++ r) data →
    t.HasFile (p ++ [n] ++ r) data ∨ t.HasFile (q ++ [m] ++ r) data

theorem Conserved.of_eq (h : s.WellFormed) (heq : t = s) : s.Conserved p n q m t := by
  rw [heq]
  exact ⟨h, fun _ _ => rfl, fun _ _ => .inl⟩

section

variable (hapart : Location.Apart (p ++ [n]) (q ++ [m]))

include hapart

/-- Work at the target conserves the files of the source. -/
theorem Confined.conserved (h : s.Confined q m t) : s.Conserved p n q m t :=
  ⟨h.wf, h.outside.aside_right p n, fun r _ hfile =>
    .inl (h.outside.hasFile (hapart.not_within_of_within (List.prefix_append _ r)) hfile)⟩

/-- The source may be removed when every file of it has a copy at the target. -/
theorem Conserved.remove (h : s.Conserved p n q m t) (hu : t.Confined p n u)
    (hcopied : ∀ r data, s.HasFile (p ++ [n] ++ r) data → t.HasFile (q ++ [m] ++ r) data) :
    s.Conserved p n q m u :=
  ⟨hu.wf, Agree.trans h.aside (hu.outside.aside_left q m), fun r data hfile =>
    .inr (hu.outside.hasFile (hapart.symm.not_within_of_within (List.prefix_append _ r))
      (hcopied r data hfile))⟩

/-- Moving one entry conserves the files of the whole directory, if the entry was still there. -/
theorem Conserved.turn (h : s.Conserved p n q m t) {e : Entry} {rest : List Entry}
    (hawaiting : Awaiting (p ++ [n]) (e :: rest) s t)
    (hmove : t.Conserved (p ++ [n]) e.name (q ++ [m]) e.name u) : s.Conserved p n q m u := by
  refine ⟨hmove.wf, Agree.trans h.aside hmove.aside.of_child, fun r data hfile => ?_⟩
  by_cases hr : [e.name] <+: r
  · -- The file belongs to the entry, so it is still at its old place when the entry is moved.
    obtain ⟨r, rfl⟩ := hr
    have hstill : t.HasFile (p ++ [n] ++ [e.name] ++ r) data := by
      refine hfile.congr ?_
      rw [List.append_assoc]
      exact hawaiting.same e List.mem_cons_self r
    rw [← List.append_assoc, ← List.append_assoc]
    exact hmove.files r data hstill
  · -- The file belongs to another entry, whose places the move does not touch.
    have hsource : ¬ p ++ [n] ++ [e.name] <+: p ++ [n] ++ r := fun hp =>
      hr ((List.prefix_append_right_inj _).mp hp)
    have htarget : ¬ q ++ [m] ++ [e.name] <+: q ++ [m] ++ r := fun hp =>
      hr ((List.prefix_append_right_inj _).mp hp)
    refine (h.files r data hfile).imp ?_ ?_
    · refine hmove.aside.hasFile hsource ?_
      exact fun hp => (hapart.append r [e.name]).not_within' hp
    · refine hmove.aside.hasFile ?_ htarget
      exact fun hp => (hapart.append [e.name] r).not_within hp

/-- Making room at the target leaves the entries of the source to be moved. -/
theorem Confined.awaiting (h : s.Confined q m t) (hs : s.WellFormed) {ino : Nat} {entries : List Entry}
    (hl : t.find? (p ++ [n]) = some (.dir ino (entries.map Entry.name))) :
    Awaiting (p ++ [n]) entries s t :=
  awaiting_entries hs hl fun r =>
    h.outside.same (hapart.not_within_of_within (List.prefix_append _ r))
      fun heq => hapart.not_within_parent (heq ▸ List.prefix_append _ r)

/-- Moving one entry leaves the others where they are. -/
theorem Conserved.same (h : s.Conserved (p ++ [n]) c (q ++ [m]) c t) {d : String} (hne : c ≠ d)
    (r : Location) : t.find? (p ++ [n] ++ d :: r) = s.find? (p ++ [n] ++ d :: r) := by
  refine h.aside.same (Location.apart_child _ hne [] r).not_within
    (hapart.append (d :: r) [c]).not_within' (Location.ne_append _ (List.cons_ne_nil d r)).symm ?_
  have hq := hapart.append_ne (d :: r) []
  rwa [List.append_nil] at hq

end

/-- There are no files within an empty directory. -/
theorem not_hasFile_of_empty (h : s.WellFormed) {l : Location} {ino : Nat}
    (hl : s.find? l = some (.dir ino [])) (r : Location) (data : Bytes) : ¬ s.HasFile (l ++ r) data := by
  rintro ⟨ino', hfile⟩
  by_cases hr : r = []
  · rw [hr, List.append_nil, hl] at hfile
    cases hfile
  · cases hfile.symm.trans (h.none_below_empty (names_of_find? hl) hr)

/-- A directory from which everything was moved may be removed. -/
theorem Conserved.remove_empty (hapart : Location.Apart (p ++ [n]) (q ++ [m]))
    (h : s.Conserved p n q m t) (hu : t.Confined p n u) {ino : Nat}
    (hempty : t.find? (p ++ [n]) = some (.dir ino [])) : s.Conserved p n q m u :=
  h.remove hapart hu fun r data hfile =>
    (h.files r data hfile).resolve_left (not_hasFile_of_empty h.wf hempty r data)

end Store

variable {schedule : Nat → Option FsError} {x : Scheduled Store} {p q : Location} {n m : String}
  {source target : Path}

/-! ## Making room -/

theorem ends_removeTree (h : x.inner.WellFormed) (htarget : target.location = q ++ [m]) :
    Ends ((onSchedule schedule).removeTree target) x (fun _ y => x.inner.Confined q m y.inner)
      (fun y => x.inner.Confined q m y.inner) False :=
  ends_removeWalk (x.inner.entries.length + 1) h htarget (shallow_depth h _) (Nat.succ_pos _)

/-- Making room for a directory stays at the target, whatever is there. -/
theorem ends_roomForDir (h : x.inner.WellFormed) (htarget : target.location = q ++ [m])
    (conflict : Conflict) :
    Ends ((onSchedule schedule).roomForDir target conflict) x
      (fun _ y => x.inner.Confined q m y.inner) (fun y => x.inner.Confined q m y.inner) False := by
  have hcreate : ∀ y : Scheduled Store, x.inner.Confined q m y.inner →
      Ends ((onSchedule schedule).run (.createDir target)) y (fun _ z => x.inner.Confined q m z.inner)
        (fun z => x.inner.Confined q m z.inner) False := by
    intro y hy
    refine (Scheduled.ends_run (atomic_createDir hy.wf htarget)).mono
      (fun _ z hz => hy.trans ⟨hz.1, hz.2⟩) (fun z hz => ?_) id
    rw [hz]
    exact hy
  unfold Backend.roomForDir
  refine Ends.andThen (Scheduled.ends_run (atomic_probe target x.inner)) (fun _ => .of_eq h)
    fun found y ⟨hy, _⟩ => ?_
  split
  · refine Ends.andThen (Scheduled.ends_run (atomic_stat target y.inner))
      (fun z hz => .of_eq h (hz.trans hy)) fun stat z ⟨hz, _⟩ => ?_
    have hz : x.inner.Confined q m z.inner := .of_eq h (hz.trans hy)
    split
    · exact Ends.of_failed rfl hz
    · split
      · exact Ends.of_failed rfl hz
      · exact Ends.of_ok rfl hz
      · exact Ends.andThen (ends_removeTree hz.wf htarget) (fun _ => hz.trans) fun _ u hu =>
          hcreate u (hz.trans hu)
  · exact hcreate y (.of_eq h hy)

/-- Making room for a file changes nothing. -/
theorem ends_roomForFile (target : Path) (conflict : Conflict) :
    Ends ((onSchedule schedule).roomForFile target conflict) x (fun _ y => y.inner = x.inner)
      (fun y => y.inner = x.inner) False := by
  unfold Backend.roomForFile
  refine Ends.andThen (Scheduled.ends_run (atomic_probe target x.inner)) (fun _ => id)
    fun found y ⟨hy, _⟩ => ?_
  split
  · split
    · exact Ends.of_failed rfl hy
    · refine Ends.andThen (Scheduled.ends_run (atomic_stat target y.inner))
        (fun z hz => hz.trans hy) fun stat z ⟨hz, _⟩ => ?_
      split
      · exact Ends.of_failed rfl (hz.trans hy)
      · exact Ends.of_ok rfl (hz.trans hy)
  · exact Ends.of_ok rfl hy

/-! ## Moving -/

section

variable (h : x.inner.WellFormed) (hsource : source.location = p ++ [n])
  (htarget : target.location = q ++ [m]) (hapart : Location.Apart (p ++ [n]) (q ++ [m]))

include h hsource htarget

/-- Copying a file stays at the target, and leaves the content there once it is done. -/
theorem ends_copy :
    Ends ((onSchedule schedule).copy source target) x
      (fun _ y => x.inner.Confined q m y.inner ∧
        ∃ data, x.inner.HasFile (p ++ [n]) data ∧ y.inner.HasFile (q ++ [m]) data)
      (fun y => y.inner = x.inner) False := by
  refine Ends.andThen (Scheduled.ends_run (atomic_read source x.inner)) (fun _ => id)
    fun data y ⟨hy, hdata⟩ => ?_
  rw [hsource] at hdata
  refine (Scheduled.ends_run (atomic_write (hy ▸ h) htarget data)).mono (fun _ z hz => ?_)
    (fun z hz => hz.trans hy) id
  rw [hy] at hz
  exact ⟨⟨hz.1, hz.2.1⟩, data, hdata, hz.2.2⟩

include hapart

/-- Moving a file conserves it. -/
theorem ends_moveFile (conflict : Conflict) :
    Ends (do
        (onSchedule schedule).roomForFile target conflict
        (onSchedule schedule).copy source target
        (onSchedule schedule).run (.delete source) : Run (Scheduled Store) FsError Unit) x
      (fun _ y => x.inner.Conserved p n q m y.inner)
      (fun y => x.inner.Conserved p n q m y.inner) False := by
  refine Ends.andThen (ends_roomForFile target conflict) (fun _ => .of_eq h) fun _ y hy => ?_
  refine Ends.andThen (ends_copy (hy ▸ h) hsource htarget) (fun z hz => .of_eq h (hz.trans hy))
    fun _ z ⟨hconfined, data, hdata, hcopy⟩ => ?_
  rw [hy] at hconfined hdata
  have hz := hconfined.conserved hapart
  refine (Scheduled.ends_run (atomic_delete hz.wf hsource)).mono (fun _ u hu => ?_) (fun u hu => ?_) id
  · refine hz.remove hapart ⟨hu.1, hu.2⟩ fun r found hfile => ?_
    obtain ⟨ino, hfind⟩ := hdata
    by_cases hr : r = []
    · subst hr
      rw [List.append_nil] at hfile ⊢
      obtain ⟨ino', hfound⟩ := hfile
      cases hfind.symm.trans hfound
      exact hcopy
    · obtain ⟨ino', hfound⟩ := hfile
      cases hfound.symm.trans (h.none_below_empty (Store.names_of_find? hfind) hr)
  · rw [hu]
    exact hz

end

/-- The walk that moves by copying comes to an end and conserves the files of the source. -/
theorem ends_moveWalk (d : Nat) (conflict : Conflict) (h : x.inner.WellFormed)
    (hsource : source.location = p ++ [n]) (htarget : target.location = q ++ [m])
    (hapart : Location.Apart (p ++ [n]) (q ++ [m])) (hshallow : x.inner.Shallow (p ++ [n]) d)
    (hd : 0 < d) :
    Ends ((onSchedule schedule).moveWalk d source target conflict) x
      (fun _ y => x.inner.Conserved p n q m y.inner)
      (fun y => x.inner.Conserved p n q m y.inner) False := by
  induction d generalizing x source target p n q m with
  | zero => exact absurd hd (Nat.lt_irrefl 0)
  | succ d ih =>
    unfold Backend.moveWalk
    refine Ends.andThen (Scheduled.ends_run (atomic_stat source x.inner)) (fun _ => .of_eq h)
      fun stat y hstat => ?_
    obtain ⟨hy, -⟩ := hstat
    split
    · refine Ends.andThen (ends_roomForDir (hy ▸ h) htarget conflict) (fun z hz => ?_) fun _ z hz => ?_
      · rw [hy] at hz
        exact hz.conserved hapart
      · rw [hy] at hz
        have hroom := hz.conserved hapart
        refine Ends.andThen (Scheduled.ends_run (atomic_list hz.wf source)) (fun u hu => ?_)
          fun entries u hentries => ?_
        · rw [hu]
          exact hroom
        · obtain ⟨hu, ino, hlist⟩ := hentries
          rw [hsource] at hlist
          let inv (rest : List Entry) (w : Scheduled Store) : Prop :=
            x.inner.Conserved p n q m w.inner ∧ Store.Awaiting (p ++ [n]) rest x.inner w.inner
          have hstart : inv entries u := by
            rw [← hu] at hroom hlist hz
            exact ⟨hroom, hz.awaiting hapart h hlist⟩
          refine Ends.andThen (Ends.forM inv (fun e rest w hinv => ?_) entries hstart) (fun _ => id)
            fun _ w hinv => ?_
          · obtain ⟨hconserved, hawaiting⟩ := hinv
            have hname := hawaiting.isName h
            have hchild : (source.join e.name).location = p ++ [n] ++ [e.name] := by
              rw [source.location_join hname, hsource]
            have hplace : (target.join e.name).location = q ++ [m] ++ [e.name] := by
              rw [target.location_join hname, htarget]
            refine (ih hconserved.wf hchild hplace (hapart.append [e.name] [e.name])
              (hawaiting.shallow hshallow) (hawaiting.depth_pos h hshallow)).mono (fun _ v hv => ?_)
              (fun v hv => hconserved.turn hapart hawaiting hv) id
            exact ⟨hconserved.turn hapart hawaiting hv, hawaiting.next fun e' he =>
              hv.same hapart (hawaiting.ne he)⟩
          · obtain ⟨hconserved, _⟩ := hinv
            refine (Scheduled.ends_run (atomic_removeDir hconserved.wf hsource)).mono
              (fun _ v hv => ?_) (fun v hv => ?_) id
            · obtain ⟨hwf, houtside, ino', hempty⟩ := hv
              exact hconserved.remove_empty hapart ⟨hwf, houtside⟩ hempty
            · rw [hv]
              exact hconserved
    · exact (ends_moveFile (hy ▸ h) hsource htarget hapart conflict).mono (fun _ u hu => hy ▸ hu)
        (fun u hu => hy ▸ hu) id

/-- A file's content can be read exactly where the file is. -/
theorem read_eq_ok {s : Store} {l : Location} {data : Bytes} :
    read l s = .ok data s ↔ s.HasFile l data := by
  rw [read_apply, Store.HasFile]
  cases s.find? l with
  | none =>
    constructor
    · intro h
      cases h
    · rintro ⟨_, h⟩
      cases h
  | some node =>
    cases node with
    | file ino found =>
      constructor
      · intro h
        cases h
        exact ⟨ino, rfl⟩
      · rintro ⟨_, h⟩
        cases h
        rfl
    | dir ino names =>
      constructor
      · intro h
        cases h
      · rintro ⟨_, h⟩
        cases h

/-- From every store that can come about, for every mode and every schedule of failures, moving an
entry by copying to a place apart from it comes to an end, done or not. Every file of the source is
then readable with its content at its old place or at its new one, and outside the two places nothing
differs but whether their parents list them. -/
theorem move_conserves {a : Session} (ha : a.Reachable) (schedule : Nat → Option FsError)
    (conflict : Conflict) (source target : Path)
    (hapart : Location.Apart source.location target.location) :
    ∃ r t, ((Scheduled.backend schedule backend).moveByCopy source target conflict).outcome ⟨a.store, 0⟩
        = some (r, t) ∧
      (∀ rest data, read (source.location ++ rest) a.store = .ok data a.store →
        read (source.location ++ rest) t.inner = .ok data t.inner ∨
        read (target.location ++ rest) t.inner = .ok data t.inner) ∧
      ∃ p n q m, source.location = p ++ [n] ∧ target.location = q ++ [m] ∧
        ∀ k, ¬ source.location <+: k → ¬ target.location <+: k →
          (t.inner.find? k).map (fun node => (node.detachAt k p n).detachAt k q m)
            = (a.store.find? k).map fun node => (node.detachAt k p n).detachAt k q m := by
  have h := ha.sound.store
  obtain ⟨p, n, hsource⟩ := Location.exists_eq_append hapart.ne_nil
  obtain ⟨q, m, htarget⟩ := Location.exists_eq_append hapart.symm.ne_nil
  rw [hsource, htarget] at hapart
  have hends : Ends ((onSchedule schedule).moveByCopy source target conflict) ⟨a.store, 0⟩
      (fun _ y => a.store.Conserved p n q m y.inner) (fun y => a.store.Conserved p n q m y.inner) False :=
    ends_moveWalk (a.store.entries.length + 1) conflict h hsource htarget hapart (shallow_depth h _)
      (Nat.succ_pos _)
  obtain ⟨r, t, hrun, hconserved⟩ := hends.outcome
  refine ⟨r, t, hrun, fun rest data hfile => ?_, p, n, q, m, hsource, htarget, fun k hs ht => ?_⟩
  · rw [read_eq_ok] at hfile
    rw [read_eq_ok, read_eq_ok, hsource, htarget]
    exact hconserved.files rest data (hsource ▸ hfile)
  · rw [hsource] at hs
    rw [htarget] at ht
    exact hconserved.aside k fun hk => hk.elim hs ht

/-- A move that fails when it is about to delete the file it has copied. -/
theorem move_conserves_interrupted :
    ∃ a : Session, a.Reachable ∧ ∃ r t,
      ((Scheduled.backend (fun k => if k = 8 then some .outOfSpace else none) backend).moveByCopy ⟨"/a"⟩
        ⟨"/b"⟩ .overwrite).outcome ⟨a.store, 0⟩ = some (r, t) ∧ r.isOk = false ∧
      (read ["a", "f"] t.inner = .ok [7] t.inner ∨ read ["b", "f"] t.inner = .ok [7] t.inner) := by
  have h : Session.Reachable ⟨_, _⟩ :=
    .step (.step .start (.call (.createDir ⟨"/a"⟩) _ _)) (.call (.write ⟨"/a/f"⟩ [7]) _ _)
  obtain ⟨r, t, hrun, hfiles, _⟩ := move_conserves h (fun k => if k = 8 then some .outOfSpace else none)
    .overwrite ⟨"/a"⟩ ⟨"/b"⟩ ⟨by decide +kernel, by decide +kernel⟩
  refine ⟨_, h, r, t, hrun, ?_, ?_⟩
  · have hrefused := congrArg (Option.map fun y => y.1.isOk) hrun
    exact (Option.some.inj (Eq.trans (by decide +kernel) hrefused)).symm
  · have hsource : Path.location ⟨"/a"⟩ = ["a"] := by decide +kernel
    have htarget : Path.location ⟨"/b"⟩ = ["b"] := by decide +kernel
    rw [hsource, htarget] at hfiles
    refine hfiles ["f"] [7] (read_eq_ok.mpr ⟨3, ?_⟩)
    decide +kernel

end FileProvider.Memory
