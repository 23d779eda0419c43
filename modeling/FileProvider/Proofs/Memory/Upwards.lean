import FileProvider.Proofs.Memory.Conserved
import FileProvider.Proofs.Memory.Move

/-!
# Moving on top of a directory above

A directory is put on top of one that it lies within. Its entries go to places beside the way that leads
down to it, and the first entry on that way cannot be replaced while the directory is below it. If the
source has no directory of that name, no file is lost.
-/

set_option autoImplicit false

namespace FileProvider.Memory

open Run (Ends)

variable {s : Store} {q : Location} {m : String} {source target : Path} {conflict : Conflict}

/-- Whether every file of the source is at its old place or at its new one. -/
def Store.Kept (source target : Location) (s t : Store) : Prop :=
  ∀ rest data, s.HasFile (source ++ rest) data →
    t.HasFile (source ++ rest) data ∨ t.HasFile (target ++ rest) data

/-- While the entries of `source` are moved to `target`, and those in `waiting` are still to come: they are
as they were, and no file was lost. -/
structure Store.Rising (source target : Location) (waiting : List String) (s t : Store) : Prop where
  wf : t.WellFormed
  once : waiting.Nodup
  still : ∀ a ∈ waiting, ∀ r, t.find? (source ++ a :: r) = s.find? (source ++ a :: r)
  kept : s.Kept source target t

section

variable {t u : Store} {l k r : Location} {a c : String} (hplace : l = k ++ c :: r)

include hplace

/-- The places of another entry than the one on the way lie apart. -/
theorem apart_upwards (hac : a ≠ c) : Location.Apart (l ++ [a]) (k ++ [a]) := by
  rw [hplace, List.append_assoc, List.cons_append]
  exact Location.apart_child k hac.symm (r ++ [a]) []

/-- Moving one entry upwards keeps the files of the others, if nothing is below the entry on the way. -/
theorem Store.Kept.turn (h : s.WellFormed) (hkept : s.Kept l k t) (hway : ¬ s.IsDir (l ++ [c]))
    (hac : a ≠ c) (hstill : ∀ rest, t.find? (l ++ a :: rest) = s.find? (l ++ a :: rest))
    (hmove : t.Conserved l a k a u) : s.Kept l k u := by
  intro rest data hfile
  by_cases hrest : [a] <+: rest
  · obtain ⟨rest, rfl⟩ := hrest
    have hthere : t.HasFile (l ++ [a] ++ rest) data := by
      refine hfile.congr ?_
      rw [List.append_assoc]
      exact hstill rest
    rw [← List.append_assoc, ← List.append_assoc]
    exact hmove.files rest data hthere
  · -- The file belongs to another entry, whose places the move does not touch.
    refine (hkept rest data hfile).imp ?_ ?_
    · refine hmove.aside.hasFile (fun hp => hrest ((List.prefix_append_right_inj _).mp hp)) fun hp => ?_
      rw [hplace, List.append_assoc, List.cons_append] at hp
      exact (Location.apart_child k hac [] (r ++ rest)).not_within hp
    · refine hmove.aside.hasFile ?_ fun hp => hrest ((List.prefix_append_right_inj _).mp hp)
      rintro ⟨below, hp⟩
      rw [hplace, List.append_assoc, List.append_assoc, List.append_cancel_left_eq] at hp
      obtain ⟨ino, hfile⟩ := hfile
      have hsome : (s.find? (l ++ [c] ++ (r ++ ([a] ++ below)))).isSome = true := by
        rw [List.append_assoc, show [c] ++ (r ++ ([a] ++ below)) = rest from hp, hfile]
        rfl
      exact hway (h.isDir_above _ (by simp) hsome)

/-- Moving one entry upwards leaves the others where they are. -/
theorem Store.Conserved.still_upwards (h : t.Conserved l a k a u) (hac : a ≠ c) {b : String} (hab : a ≠ b)
    (rest : Location) : u.find? (l ++ b :: rest) = t.find? (l ++ b :: rest) := by
  have hway : l ++ b :: rest = k ++ c :: (r ++ b :: rest) := by
    rw [hplace, List.append_assoc, List.cons_append]
  refine h.aside.same (Location.apart_child l hab [] rest).not_within ?_
    (Location.ne_append l (List.cons_ne_nil b rest)).symm ?_
  · rw [hway]
    exact (Location.apart_child k hac [] (r ++ b :: rest)).not_within
  · rw [hway]
    exact (Location.ne_append k (List.cons_ne_nil c _)).symm

/-- One more entry is moved upwards. -/
theorem Store.Rising.step {waiting : List String} (h : s.Rising l k (a :: waiting) t) (hs : s.WellFormed)
    (hway : ¬ s.IsDir (l ++ [c])) (hac : a ≠ c) (hmove : t.Conserved l a k a u) :
    s.Rising l k waiting u := by
  obtain ⟨hnew, honce⟩ := List.nodup_cons.mp h.once
  refine ⟨hmove.wf, honce, fun b hb below => ?_,
    h.kept.turn hplace hs hway hac (h.still a List.mem_cons_self) hmove⟩
  have hab : a ≠ b := fun heq => hnew (heq ▸ hb)
  rw [hmove.still_upwards hplace hac hab below, h.still b (List.mem_cons_of_mem a hb) below]

omit hplace

/-- Once everything was moved elsewhere, the directory may be removed. -/
theorem Store.Kept.remove {p : Location} {n : String} (ht : t.WellFormed) (hkept : s.Kept (p ++ [n]) k t)
    {ino : Nat} (hempty : t.find? (p ++ [n]) = some (.dir ino [])) (hu : t.Outside p n u) :
    s.Kept (p ++ [n]) k u := by
  intro rest data hfile
  have hmoved : t.HasFile (k ++ rest) data :=
    (hkept rest data hfile).resolve_left (Store.not_hasFile_of_empty ht hempty rest data)
  refine .inr (hu.hasFile ?_ hmoved)
  rintro ⟨below, hp⟩
  exact Store.not_hasFile_of_empty ht hempty below data (hp ▸ hmoved)

end

/-- Moving by copying conserves the files of the source when no call fails. -/
theorem ends_conserved (d : Nat) (h : s.WellFormed) {p : Location} {n : String}
    (hsource : source.location = p ++ [n]) (htarget : target.location = q ++ [m])
    (hapart : Location.Apart (p ++ [n]) (q ++ [m])) (hshallow : s.Shallow (p ++ [n]) d) (hd : 0 < d) :
    Ends (backend.moveWalk d source target conflict) s (fun _ t => s.Conserved p n q m t)
      (fun t => s.Conserved p n q m t) False :=
  (Scheduled.mirrors_moveWalk (b := backend) (fun _ => rfl) d source target conflict).ends (s := ⟨s, 0⟩)
    (ends_moveWalk d conflict h hsource htarget hapart hshallow hd)

/-- An entry on the way that is no directory stays where it is, since a directory is at its new place. -/
theorem moveWalk_on_way {d : Nat} (h : s.WellFormed) {c : String} {r : Location}
    (hplace : source.location = target.location ++ c :: r) (hname : IsName c) {node : Node}
    (hnode : s.find? (source.location ++ [c]) = some node) (hkind : node.isDir ≠ true) :
    ∃ e, backend.moveWalk (d + 1) (source.join c) (target.join c) .overwrite s = .error (.failed e) s := by
  have hbelow : source.location ++ [c] = target.location ++ [c] ++ (r ++ [c]) := by
    rw [hplace]
    simp
  obtain ⟨ino, names, habove⟩ : s.IsDir (target.location ++ [c]) := by
    refine h.isDir_above (r ++ [c]) (List.concat_ne_nil c r) ?_
    rw [← hbelow, hnode]
    rfl
  refine moveWalk_clash .overwrite ⟨node, .dir ino names, ?_, ?_, hkind⟩
  · rw [source.location_join hname, hnode]
  · rw [target.location_join hname, habove]

/-- One turn of a move upwards: the entry on the way stops it, and any other passes. -/
theorem ends_rising {t : Store} (h : s.WellFormed) {a c : String} {r : Location} {waiting : List String}
    {d : Nat} (hplace : source.location = target.location ++ c :: r)
    (hway : ¬ s.IsDir (source.location ++ [c])) (hshallow : s.Shallow source.location (d + 1))
    (ha : (s.find? (source.location ++ [a])).isSome = true)
    (hrising : s.Rising source.location target.location (a :: waiting) t) :
    Ends (backend.moveWalk d (source.join a) (target.join a) .overwrite) t
      (fun _ u => s.Rising source.location target.location waiting u)
      (fun u => s.Kept source.location target.location u) False := by
  have hname : IsName a := h.isName ((h.listed _ a).mp ha)
  have hstill := hrising.still a List.mem_cons_self
  have hd : 0 < d := hshallow.pos ha
  by_cases hac : a = c
  · subst hac
    obtain ⟨node, hnode⟩ := Option.isSome_iff_exists.mp ha
    have hkind : node.isDir ≠ true := fun hdir => hway (Store.isDir_iff.mpr ⟨node, hnode, hdir⟩)
    obtain ⟨d, rfl⟩ := Nat.exists_eq_succ_of_ne_zero (Nat.pos_iff_ne_zero.mp hd)
    obtain ⟨e, he⟩ := moveWalk_on_way (d := d) hrising.wf hplace hname ((hstill []).trans hnode) hkind
    exact Ends.of_failed he hrising.kept
  · have hdeep : t.Shallow (source.location ++ [a]) d :=
      hshallow.child fun k => congrArg (Option.map Node.plain) (hstill k)
    refine (ends_conserved d hrising.wf (source.location_join hname) (target.location_join hname)
      (apart_upwards hplace hac) hdeep hd).mono (fun _ u hmove => ?_) (fun u hmove => ?_) id
    · exact hrising.step hplace h hway hac hmove
    · exact hrising.kept.turn hplace h hway hac hstill hmove

/-- A directory can be put on top of one above it if no directory is on the way: every file is kept. -/
theorem ends_over_above (h : s.WellFormed) {c : String} {r : Location}
    (hplace : source.location = target.location ++ c :: r) (hdir : s.IsDir source.location)
    (hway : ¬ s.IsDir (source.location ++ [c])) :
    Ends (backend.moveTree source target .overwrite) s
      (fun _ t => s.Kept source.location target.location t)
      (fun t => s.Kept source.location target.location t) False := by
  have hpresent : s.IsDir target.location :=
    h.isDir_above (c :: r) (List.cons_ne_nil c r) (hplace ▸ hdir.isSome)
  have hshallow : s.Shallow source.location (s.entries.length + 1) := shallow_depth h _
  refine Ends.of_eq (moveWalk_of_room (d := s.entries.length) hdir (roomForDir_overwrite hpresent) h hdir) ?_
  obtain ⟨ino, names, hfind⟩ := hdir
  rw [Store.names_of_find? hfind]
  have hlisted : ∀ a ∈ names, (s.find? (source.location ++ [a])).isSome = true := fun a ha =>
    (h.listed _ a).mpr (Store.mem_names_iff.mpr ⟨ino, names, hfind, ha⟩)
  let inv (waiting : List String) (t : Store) : Prop :=
    waiting ⊆ names ∧ s.Rising source.location target.location waiting t
  have hstart : inv names s :=
    ⟨List.Subset.refl names, h, h.once _ _ hfind, fun _ _ _ => rfl, fun _ _ => .inl⟩
  refine Ends.andThen (Ends.forM inv (fun a waiting t ⟨hwaiting, hrising⟩ => ?_) names hstart) (fun _ => id)
    fun _ t ⟨_, hrising⟩ => ?_
  · have ha := hlisted a (hwaiting List.mem_cons_self)
    refine (ends_rising h hplace hway hshallow ha hrising).mono (fun _ u hu => ?_) (fun _ => id) id
    exact ⟨fun b hb => hwaiting (List.mem_cons_of_mem a hb), hu⟩
  · have hne : source.location ≠ [] := by simp [hplace]
    obtain ⟨p, n, hsource⟩ := Location.exists_eq_append hne
    refine (Ends.of_atomic (atomic_removeDir hrising.wf hsource)).mono (fun _ u hu => ?_)
      (fun u hu => ?_) id
    · obtain ⟨_, houtside, ino', hempty⟩ := hu
      have hkept := hrising.kept
      rw [hsource] at hkept ⊢
      exact hkept.remove hrising.wf hempty houtside
    · rw [hu]
      exact hrising.kept

end FileProvider.Memory
