import FileProvider.Proofs.Text.Search

/-!
# The first whole segment

A segment stands in a text behind a slash, and ends with the text or before another slash. The scan that
removes one tries every place in turn; what it removes is the segment at the first of the places, and if there
is no place it removes nothing. In a text that is written as segments with a slash before each, the segment it
removes is the first that equals the name.
-/

set_option autoImplicit false

namespace FileProvider.Text

variable {name s t before after : List Char} {segments : List (List Char)}

/-! ## Segments in a text -/

/-- Whether `name` is a whole segment of a text, with `before` standing before its slash and `after` behind. -/
def SegmentAt (name s before after : List Char) : Prop :=
  s = before ++ ('/' :: name ++ after) ∧ (after = [] ∨ after.head? = some '/')

/-- Whether one text is another without the first segment `name` of that and the slash before it, or the same
text if there is none. -/
def LessFirst (name s t : List Char) : Prop :=
  (∃ before after, SegmentAt name s before after ∧
      (∀ first rest, SegmentAt name s first rest → before.length ≤ first.length) ∧ t = before ++ after) ∨
    (∀ before after, ¬ SegmentAt name s before after) ∧ t = s

theorem atSegmentEnd_iff (s : List Char) : atSegmentEnd s = true ↔ s = [] ∨ s.head? = some '/' := by
  cases s with
  | nil => simp [atSegmentEnd]
  | cons c s => simp [atSegmentEnd]

theorem segmentAt_nil : SegmentAt name s [] after ↔ s = '/' :: name ++ after ∧ atSegmentEnd after = true := by
  rw [SegmentAt, atSegmentEnd_iff, List.nil_append]

/-- Behind the first character the same segments stand as in the rest. -/
theorem segmentAt_cons {c d : Char} :
    SegmentAt name (c :: s) (d :: before) after ↔ c = d ∧ SegmentAt name s before after := by
  rw [SegmentAt, SegmentAt, List.cons_append, List.cons.injEq, and_assoc]

/-- What is left by the removal of a segment is the text without the first one. -/
theorem dropSegment_lessFirst (name s : List Char) : LessFirst name s (dropSegment ('/' :: name) s) := by
  induction s with
  | nil => exact .inr ⟨fun before after h => by simp [SegmentAt] at h, rfl⟩
  | cons c s ih =>
    rcases dropSegment_cons ('/' :: name) c s with ⟨after, heq, hend, hdrop⟩ | ⟨hnot, hdrop⟩
    · exact .inl ⟨[], after, segmentAt_nil.mpr ⟨heq, hend⟩, fun _ _ _ => Nat.zero_le _, hdrop⟩
    · -- No segment stands in front, so each one stands behind the first character.
      have hbehind : ∀ {before after}, SegmentAt name (c :: s) before after →
          ∃ front, before = c :: front ∧ SegmentAt name s front after := by
        intro before after h
        cases before with
        | nil =>
          obtain ⟨heq, hend⟩ := segmentAt_nil.mp h
          rw [hnot after heq] at hend
          cases hend
        | cons d front =>
          obtain ⟨rfl, hrest⟩ := segmentAt_cons.mp h
          exact ⟨front, rfl, hrest⟩
      rcases ih with ⟨before, after, hat, hfirst, hleft⟩ | ⟨hnone, hsame⟩
      · refine .inl ⟨c :: before, after, segmentAt_cons.mpr ⟨rfl, hat⟩, fun first rest h => ?_, ?_⟩
        · obtain ⟨front, rfl, hrest⟩ := hbehind h
          exact Nat.succ_le_succ (hfirst front rest hrest)
        · rw [hdrop, hleft, List.cons_append]
      · refine .inr ⟨fun before after h => ?_, by rw [hdrop, hsame]⟩
        obtain ⟨front, -, hrest⟩ := hbehind h
        exact hnone front after hrest

/-! ## Texts made of segments -/

/-- The segments with a slash before each of them. -/
def slashed (segments : List (List Char)) : List Char := segments.flatMap ('/' :: ·)

@[simp] theorem slashed_nil : slashed [] = [] := rfl

@[simp] theorem slashed_cons (s : List Char) (segments : List (List Char)) :
    slashed (s :: segments) = '/' :: s ++ slashed segments := rfl

/-- One segment more stands behind the others. -/
theorem slashed_concat (segments : List (List Char)) (s : List Char) :
    slashed (segments ++ [s]) = slashed segments ++ '/' :: s := by
  rw [slashed, slashed, List.flatMap_append, List.flatMap_singleton]

/-- The pieces of a text are its segments, with one slash before it. -/
theorem slashed_pieces (s : List Char) : slashed (pieces '/' s) = '/' :: s := by
  induction s with
  | nil => rfl
  | cons c s ih =>
    by_cases hc : c = '/'
    · rw [pieces, if_pos hc, slashed_cons, ih, hc, List.singleton_append]
    · obtain ⟨p, ps, hp⟩ := List.exists_cons_of_ne_nil (pieces_ne_nil _ s)
      rw [hp, slashed_cons, List.cons_append, List.cons.injEq] at ih
      rw [pieces_cons hc hp, slashed_cons, ← ih.2]
      rfl

/-- Segments without slashes are the pieces that they were put together from. -/
theorem pieces_slashed (h : ∀ s ∈ segments, '/' ∉ s) : pieces '/' (slashed segments) = [] :: segments := by
  induction segments with
  | nil => rfl
  | cons s segments ih =>
    obtain ⟨hs, hrest⟩ := List.forall_mem_cons.mp h
    have hpieces := pieces_append_of_not_mem hs (ih hrest)
    rw [List.append_nil] at hpieces
    rw [slashed_cons, List.cons_append, pieces, if_pos rfl, hpieces]

/-- A text made of segments goes on at the end of a segment. -/
theorem atSegmentEnd_slashed (segments : List (List Char)) (h : atSegmentEnd t = true) :
    atSegmentEnd (slashed segments ++ t) = true := by
  cases segments with
  | nil => exact h
  | cons s segments => rfl

/-- What holds no slash is passed over. -/
theorem dropSegment_append_of_not_mem (h : '/' ∉ t) (name s : List Char) :
    dropSegment ('/' :: name) (t ++ s) = t ++ dropSegment ('/' :: name) s := by
  induction t with
  | nil => rfl
  | cons c t ih =>
    obtain ⟨hc, ht⟩ := not_or.mp (mt List.mem_cons.mpr h)
    rcases dropSegment_cons ('/' :: name) c (t ++ s) with ⟨after, heq, -, -⟩ | ⟨-, hdrop⟩
    · exact absurd (List.cons.inj heq).1.symm hc
    · rw [List.cons_append, hdrop, ih ht, List.cons_append]

/-- Two texts that end at the same place of a third, each where a segment can end, are the same. -/
theorem eq_of_segmentEnd {s' t' : List Char} (hs : '/' ∉ s) (hs' : '/' ∉ s') (ht : atSegmentEnd t = true)
    (ht' : atSegmentEnd t' = true) (heq : s ++ t = s' ++ t') : s = s' := by
  have hcut : ∀ {u v : List Char}, '/' ∉ u → atSegmentEnd v = true → (u ++ v).takeWhile (· ≠ '/') = u := by
    intro u v hu hv
    cases v with
    | nil =>
      rw [List.append_nil, List.takeWhile_eq_self_iff]
      exact fun x hx => decide_eq_true fun h => hu (h ▸ hx)
    | cons c v =>
      obtain rfl : c = '/' := of_decide_eq_true hv
      exact takeWhile_ne_slash hu
  rw [← hcut hs ht, heq, hcut hs' ht']

/-- From segments the first one of the name is removed; a slash at their end does not matter. -/
theorem dropSegment_slashed (hne : name ≠ []) (hname : '/' ∉ name) (h : ∀ s ∈ segments, '/' ∉ s)
    (ht : t = [] ∨ t = ['/']) :
    dropSegment ('/' :: name) (slashed segments ++ t) = slashed (segments.erase name) ++ t := by
  have hend : atSegmentEnd t = true := by rcases ht with rfl | rfl <;> rfl
  induction segments with
  | nil =>
    refine dropSegment_of_length ?_
    have hlength := List.length_pos_of_ne_nil hne
    rcases ht with rfl | rfl <;> simp [hlength]
  | cons s segments ih =>
    obtain ⟨hs, hrest⟩ := List.forall_mem_cons.mp h
    rw [slashed_cons, List.append_assoc, List.cons_append]
    rcases dropSegment_cons ('/' :: name) '/' (s ++ (slashed segments ++ t)) with
      ⟨after, heq, hafter, hdrop⟩ | ⟨hnot, hdrop⟩
    · have hsegment : s ++ (slashed segments ++ t) = name ++ after := (List.cons.inj heq).2
      obtain rfl := eq_of_segmentEnd hs hname (atSegmentEnd_slashed segments hend) hafter hsegment
      rw [hdrop, List.erase_cons_head, List.append_cancel_left hsegment]
    · have hother : s ≠ name := by
        rintro rfl
        have hfront := atSegmentEnd_slashed segments hend
        rw [hnot _ rfl] at hfront
        cases hfront
      rw [hdrop, dropSegment_append_of_not_mem hs, ih hrest, List.erase_cons_tail (by simpa using hother),
        slashed_cons, List.append_assoc, List.cons_append]

/-- Segments that are not empty do not end with a slash. -/
theorem getLast?_slashed (h : ∀ s ∈ segments, s ≠ [] ∧ '/' ∉ s) : (slashed segments).getLast? ≠ some '/' := by
  rcases List.eq_nil_or_concat' segments with rfl | ⟨front, s, rfl⟩
  · rintro ⟨⟩
  · obtain ⟨hne, hs⟩ := h s (List.mem_append_right _ (List.mem_singleton_self s))
    rw [slashed_concat, List.append_cons, List.getLast?_append_of_ne_nil _ hne]
    exact fun hslash => hs (List.mem_of_getLast? hslash)

theorem chopSlash_slashed (h : ∀ s ∈ segments, s ≠ [] ∧ '/' ∉ s) :
    chopSlash (slashed segments) = slashed segments :=
  if_neg (getLast?_slashed h)

end FileProvider.Text
