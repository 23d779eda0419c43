import FileProvider.Proofs.Fs.Tree
import FileProvider.Proofs.Memory.Change
import FileProvider.Proofs.Memory.Merge
import FileProvider.Proofs.Memory.Walk

/-!
# Entries that pass from one directory to another

A move by copying puts the entries of a directory one by one on top of those of another one.
`Store.Passed` says what is seen after some of them have passed; it is what the loop keeps, each turn
adding one name, as long as no entry's old or new place lies within another's.
-/

set_option autoImplicit false

namespace FileProvider.Memory

open Run (Ends)

namespace Store

/-- Whether nothing lies as far below a location as the given depth. -/
def Shallow (s : Store) (l : Location) (d : Nat) : Prop :=
  ∀ r, (s.find? (l ++ r)).isSome = true → r.length < d

theorem not_shallow_zero {s : Store} {l : Location} (h : (s.find? l).isSome = true) :
    ¬ s.Shallow l 0 := fun hshallow => Nat.not_lt_zero 0 (hshallow [] (by rwa [List.append_nil]))

theorem Shallow.congr {s t : Store} {l : Location} {d : Nat} (h : s.Shallow l d)
    (hview : ∀ r, t.view (l ++ r) = s.view (l ++ r)) : t.Shallow l d := by
  intro r hr
  rw [← isSome_view, hview, isSome_view] at hr
  exact h r hr

/-- An entry of a directory is as much less deep as it lies below. -/
theorem Shallow.child {s t : Store} {l : Location} {c : String} {d : Nat} (h : s.Shallow l (d + 1))
    (hstill : ∀ r, t.view (l ++ c :: r) = s.view (l ++ c :: r)) : t.Shallow (l ++ [c]) d := by
  intro r hr
  rw [← List.append_cons, ← isSome_view, hstill, isSome_view] at hr
  exact Nat.lt_of_succ_lt_succ (h (c :: r) hr)

/-- A directory that has an entry is not at the depth limit. -/
theorem Shallow.pos {s : Store} {l : Location} {c : String} {d : Nat} (h : s.Shallow l (d + 1))
    (hentry : (s.find? (l ++ [c])).isSome = true) : 0 < d := Nat.lt_of_succ_lt_succ (h [c] hentry)

/-- What is seen once the entries `passed` have passed from `source` to `target`, which listed `old`
before, while the entries `kept` have not. -/
structure Passed (source target : Location) (old passed kept : List String) (s t : Store) : Prop where
  /-- The one directory lists those that have not passed. -/
  keeping : t.view source = some (.dir 0 kept)
  /-- The other one lists those that have, in the same order and behind its own. -/
  holding : t.view target = some (.dir 0 (old ++ passed.filter (· ∉ old)))
  /-- Nothing is left where they were. -/
  gone : ∀ c ∈ passed, ∀ r, t.view (source ++ c :: r) = none
  /-- They are seen on top of what was at the new places. -/
  here : ∀ c ∈ passed, ∀ r,
    t.view (target ++ c :: r) = merged (s.view (source ++ c :: r)) (s.view (target ++ c :: r))
  /-- Elsewhere nothing differs. -/
  other : ∀ k, k ≠ source → k ≠ target →
    (∀ c ∈ passed, ¬ source ++ [c] <+: k ∧ ¬ target ++ [c] <+: k) → t.view k = s.view k

variable {s t u : Store} {source target : Location} {old passed kept : List String} {c : String}

/-- At first nothing has passed. -/
theorem passed_nil (hsource : s.view source = some (.dir 0 kept))
    (htarget : s.view target = some (.dir 0 old)) : Passed source target old [] kept s s :=
  ⟨hsource, by simpa using htarget, fun _ h => absurd h List.not_mem_nil,
    fun _ h => absurd h List.not_mem_nil, fun _ _ _ _ => rfl⟩

section

variable {names : List String}
  (hapart : ∀ a ∈ names, ∀ b ∈ names, Location.Apart (source ++ [a]) (target ++ [b]))

include hapart

/-- What lies within the old place of one entry lies outside both places of another. -/
theorem outside_source {a b : String} (ha : a ∈ names) (hb : b ∈ names) (hab : a ≠ b) (r : Location) :
    ¬ source ++ [b] <+: source ++ a :: r ∧ ¬ target ++ [b] <+: source ++ a :: r := by
  refine ⟨(Location.apart_child source hab r []).not_within', ?_⟩
  rw [List.append_cons source a r]
  exact (hapart a ha b hb).not_within_of_within (List.prefix_append _ r)

/-- What lies within the new place of one entry lies outside both places of another. -/
theorem outside_target {a b : String} (ha : a ∈ names) (hb : b ∈ names) (hab : a ≠ b) (r : Location) :
    ¬ source ++ [b] <+: target ++ a :: r ∧ ¬ target ++ [b] <+: target ++ a :: r := by
  refine ⟨?_, (Location.apart_child target hab r []).not_within'⟩
  rw [List.append_cons target a r]
  exact (hapart b hb a ha).symm.not_within_of_within (List.prefix_append _ r)

/-- Neither directory lies within the place of an entry. -/
theorem within_ne {a : String} (ha : a ∈ names) (r : Location) :
    source ++ a :: r ≠ target ∧ target ++ a :: r ≠ source := by
  rw [List.append_cons, List.append_cons target]
  constructor
  · exact fun heq => (hapart a ha a ha).not_within_parent (heq ▸ List.prefix_append _ r)
  · exact fun heq => (hapart a ha a ha).symm.not_within_parent (heq ▸ List.prefix_append _ r)

/-- Nothing has changed at the old and the new place of an entry that has not passed. -/
theorem Passed.still (h : Passed source target old passed kept s t)
    (hpassed : ∀ a ∈ passed, a ∈ names) (hname : c ∈ names) (hc : c ∉ passed) (r : Location) :
    t.view (source ++ c :: r) = s.view (source ++ c :: r) ∧
      t.view (target ++ c :: r) = s.view (target ++ c :: r) := by
  have hne : ∀ a ∈ passed, c ≠ a := fun a ha heq => hc (heq ▸ ha)
  constructor
  · apply h.other _ (Location.ne_append source (List.cons_ne_nil c r)).symm
      (within_ne hapart hname r).1
    intro a ha
    exact outside_source hapart hname (hpassed a ha) (hne a ha) r
  · apply h.other _ (within_ne hapart hname r).2
      (Location.ne_append target (List.cons_ne_nil c r)).symm
    intro a ha
    exact outside_target hapart hname (hpassed a ha) (hne a ha) r

/-- One more entry passes when its tree is put on top of what is at its place in the other directory. -/
theorem Passed.step (h : Passed source target old passed (c :: kept) s t)
    (hmove : Merged source c target c t u) (hnames : ∀ a ∈ passed, a ∈ names) (hname : c ∈ names)
    (hpassed : c ∉ passed) (hkept : c ∉ kept) :
    Passed source target old (passed ++ [c]) kept s u := by
  have hself := hapart c hname c hname
  have hne : source ≠ target := by
    rintro rfl
    exact hself.not_within (List.prefix_refl _)
  have hother : ∀ a ∈ passed, a ≠ c := fun a ha heq => hpassed (heq ▸ ha)
  refine ⟨?_, ?_, fun a ha r => ?_, fun a ha r => ?_, fun k hks hkt hk => ?_⟩
  · rw [hmove.other source (Location.not_within_child source c) hself.symm.not_within_parent,
      h.keeping, Option.map_some, Option.map_some, Node.detachAt_self, Node.attachAt_ne hne,
      Node.detach, List.filter_cons_of_neg (by simp), List.filter_eq_self.mpr]
    exact fun b hb => decide_eq_true fun heq => hkept (heq ▸ hb)
  · rw [hmove.other target hself.not_within_parent (Location.not_within_child target c),
      h.holding, Option.map_some, Option.map_some, Node.detachAt_ne hne.symm, Node.attachAt_self,
      Node.attach]
    by_cases hc : c ∈ old <;> simp [hc, hpassed]
  · rcases List.mem_append.mp ha with ha | ha
    · obtain ⟨hs, ht⟩ := outside_source hapart (hnames a ha) hname (hother a ha) r
      rw [hmove.other _ hs ht, h.gone a ha]
      rfl
    · rw [List.mem_singleton.mp ha, List.append_cons, hmove.gone]
  · rcases List.mem_append.mp ha with ha | ha
    · obtain ⟨hs, ht⟩ := outside_target hapart (hnames a ha) hname (hother a ha) r
      rw [hmove.same hs ht (within_ne hapart (hnames a ha) r).2
        (Location.ne_append target (List.cons_ne_nil a r)).symm, h.here a ha]
    · obtain ⟨hs, ht⟩ := h.still hapart hnames hname hpassed r
      rw [List.mem_singleton.mp ha, List.append_cons, hmove.here, ← List.append_cons,
        ← List.append_cons, hs, ht]
  · obtain ⟨hs, ht⟩ := hk c (List.mem_append_right passed List.mem_cons_self)
    rw [hmove.same hs ht hks hkt, h.other k hks hkt fun b hb => hk b (List.mem_append_left [c] hb)]

end

/-- Once all entries of a directory have passed, the other one shows both trees. -/
theorem Passed.merged {names : List String} (h : Passed source target old names [] s t)
    (hs : s.WellFormed) (hapart : Location.Apart source target)
    (hsource : s.view source = some (.dir 0 names)) (c : String) (r : Location) :
    t.view (target ++ c :: r)
      = Memory.merged (s.view (source ++ c :: r)) (s.view (target ++ c :: r)) := by
  by_cases hc : c ∈ names
  · exact h.here c hc r
  · -- A name that is not listed leads nowhere, so nothing has come to its place.
    have hnone : s.view (source ++ c :: r) = none := by
      rw [view_eq_none, List.append_cons]
      apply hs.none_below
      rwa [← Option.not_isSome_iff_eq_none, hs.listed, names_of_view hsource]
    rw [hnone, merged_none_left]
    apply h.other
    · intro heq
      exact hapart.not_within' (heq ▸ List.prefix_append target (c :: r))
    · exact (Location.ne_append target (List.cons_ne_nil c r)).symm
    · intro a ha
      have hac : a ≠ c := fun heq => hc (heq ▸ ha)
      exact ⟨(hapart.append [a] (c :: r)).not_within, (Location.apart_child target hac [] r).not_within⟩

end Store

variable {depth : Store → Nat} {s : Store}

/-- The walk that moves by copying keeps a store well-formed. -/
theorem keeps_moveWalk (d : Nat) (source target : Path) (conflict : Conflict) :
    Keeps Store.WellFormed ((backendTo depth).moveWalk d source target conflict) :=
  (Backend.KeepsOn.everywhere (b := backendTo depth) (fun c => keeps_call c) (fun _ _ h => nomatch h)).moveWalk
    d trivial trivial conflict

/-- Whether a walk with a depth limit, on every well-formed store, puts a tree on top of what is at any
place apart from it, unless the two clash or the tree is deeper than the limit. -/
def Merges (depth : Store → Nat) (conflict : Conflict) (d : Nat) : Prop :=
  ∀ {s : Store} {p q : Location} {n m : String} {source target : Path}, s.WellFormed →
    source.location = p ++ [n] → target.location = q ++ [m] → Location.Apart (p ++ [n]) (q ++ [m]) →
    (s.find? (p ++ [n])).isSome = true → conflict = .overwrite ∨ s.find? (q ++ [m]) = none →
    Name.isText m = true → s.IsDir q →
    Ends ((backendTo depth).moveWalk d source target conflict) s
      (fun _ t => s.Merged p n q m t ∧ ∀ r, ¬ s.Clash (p ++ [n] ++ r) (q ++ [m] ++ r))
      (fun _ => ∃ r, s.Clash (p ++ [n] ++ r) (q ++ [m] ++ r)) (¬ s.Shallow (p ++ [n]) d)

/-- One turn of the loop of a move: the next entry passes, unless it clashes or is too deep. -/
theorem ends_passing_next {source target : Path} {d : Nat} {conflict : Conflict}
    (hmerges : Merges depth conflict d) {t : Store} (ht : t.WellFormed)
    {names passed kept old : List String} {c : String}
    (hpassed : Store.Passed source.location target.location old passed (c :: kept) s t)
    (hapart : ∀ a ∈ names, ∀ b ∈ names,
      Location.Apart (source.location ++ [a]) (target.location ++ [b]))
    (hbefore : ∀ a ∈ passed, a ∈ names) (hc : c ∈ names) (hnew : c ∉ passed) (honce : c ∉ kept)
    (hroom : conflict = .overwrite ∨ c ∉ old) :
    Ends ((backendTo depth).moveWalk d (source.join c) (target.join c) conflict) t
      (fun _ u => u.WellFormed ∧
        Store.Passed source.location target.location old (passed ++ [c]) kept s u ∧
        ∀ r, ¬ s.Clash (source.location ++ c :: r) (target.location ++ c :: r))
      (fun _ => ∃ r, s.Clash (source.location ++ c :: r) (target.location ++ c :: r))
      (¬ s.Shallow (source.location ++ [c]) d) := by
  -- The entry and its place are as they were.
  have hstill := hpassed.still hapart hbefore hc hnew
  have hclash : ∀ r, t.Clash (source.location ++ [c] ++ r) (target.location ++ [c] ++ r) ↔
      s.Clash (source.location ++ c :: r) (target.location ++ c :: r) := by
    intro r
    rw [← List.append_cons, ← List.append_cons]
    exact Store.clash_congr (hstill r).1 (hstill r).2
  have hlisted : c ∈ t.names source.location := by
    rw [Store.names_of_view hpassed.keeping]
    exact List.mem_cons_self
  have hname : IsName c := ht.isName hlisted
  have hfree : conflict = .overwrite ∨ t.find? (target.location ++ [c]) = none := by
    refine hroom.imp id fun hold => ?_
    rw [← Option.not_isSome_iff_eq_none, ht.listed, Store.names_of_view hpassed.holding]
    simp [hnew, hold]
  have hmove := hmerges ht (source.location_join hname) (target.location_join hname)
    (hapart c hc c hc) ((ht.listed _ _).mpr hlisted) hfree hname.isText
    (Store.isDir_of_view hpassed.holding)
  refine (hmove.keep (keeps_moveWalk _ _ _ _) ht).mono (fun _ u hu => ?_) (fun _ hu => ?_) ?_
  · obtain ⟨hwf, hmerged, hnot⟩ := hu
    exact ⟨hwf, hpassed.step hapart hmerged hbefore hc hnew honce, fun r hr => hnot r ((hclash r).mpr hr)⟩
  · obtain ⟨r, hr⟩ := hu
    exact ⟨r, (hclash r).mp hr⟩
  · refine fun hdeep hshallow => hdeep (hshallow.congr fun r => ?_)
    rw [← List.append_cons]
    exact (hstill r).1

/-- The loop of a move lets all given entries of a directory pass into another one. -/
theorem ends_passing (source target : Path) {d : Nat} {conflict : Conflict}
    (hmerges : Merges depth conflict d) (h : s.WellFormed) {names kept old : List String}
    (hsource : s.view source.location = some (.dir 0 (names ++ kept)))
    (htarget : s.view target.location = some (.dir 0 old))
    (hroom : conflict = .overwrite ∨ ∀ c ∈ names, c ∉ old)
    (hapart : ∀ a ∈ names, ∀ b ∈ names,
      Location.Apart (source.location ++ [a]) (target.location ++ [b])) :
    Ends (names.forM fun c => (backendTo depth).moveWalk d (source.join c) (target.join c) conflict) s
      (fun _ t => t.WellFormed ∧ Store.Passed source.location target.location old names kept s t ∧
        ∀ c ∈ names, ∀ r, ¬ s.Clash (source.location ++ c :: r) (target.location ++ c :: r))
      (fun _ => ∃ c ∈ names, ∃ r, s.Clash (source.location ++ c :: r) (target.location ++ c :: r))
      (¬ ∀ c ∈ names, s.Shallow (source.location ++ [c]) d) := by
  have hnodup : (names ++ kept).Nodup := Store.names_of_view hsource ▸ h.nodup_names _
  -- Some entries have passed without a clash, the others of `names` still have to.
  let inv (rest : List String) (t : Store) : Prop := ∃ passed, names = passed ++ rest ∧ t.WellFormed ∧
    Store.Passed source.location target.location old passed (rest ++ kept) s t ∧
    ∀ c ∈ passed, ∀ r, ¬ s.Clash (source.location ++ c :: r) (target.location ++ c :: r)
  have hstart : inv names s :=
    ⟨[], rfl, h, Store.passed_nil hsource htarget, fun _ hc => absurd hc List.not_mem_nil⟩
  refine (Ends.forM inv (fun c rest t hinv => ?_) names hstart).mono (fun _ t hinv => ?_) (fun _ => id) id
  · obtain ⟨passed, hnames, ht, hpassed, hclear⟩ := hinv
    have hbefore : ∀ a ∈ passed, a ∈ names := fun a ha => hnames ▸ List.mem_append_left _ ha
    have hc : c ∈ names := hnames ▸ List.mem_append_right passed List.mem_cons_self
    rw [hnames, List.append_assoc, List.cons_append] at hnodup
    obtain ⟨_, hrest, hdisjoint⟩ := List.nodup_append.mp hnodup
    have hnew : c ∉ passed := fun hmem => hdisjoint c hmem c List.mem_cons_self rfl
    have honce : c ∉ rest ++ kept := (List.nodup_cons.mp hrest).1
    refine (ends_passing_next hmerges ht hpassed hapart hbefore hc hnew honce
      (hroom.imp id fun hold => hold c hc)).mono (fun _ u hu => ?_) (fun _ hu => ⟨c, hc, hu⟩)
      fun hdeep hall => hdeep (hall c hc)
    obtain ⟨hwf, hpassed', hnot⟩ := hu
    refine ⟨passed ++ [c], by rw [hnames, List.append_assoc, List.singleton_append], hwf, hpassed', ?_⟩
    intro a ha
    rcases List.mem_append.mp ha with ha | ha
    · exact hclear a ha
    · exact List.mem_singleton.mp ha ▸ hnot
  · obtain ⟨passed, hnames, ht, hpassed⟩ := hinv
    rw [List.append_nil] at hnames
    exact ⟨ht, hnames ▸ hpassed⟩

end FileProvider.Memory
