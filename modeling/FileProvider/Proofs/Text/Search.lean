import FileProvider.Proofs.Text.Pieces
import Mathlib.Data.List.Basic
import Mathlib.Data.List.TakeWhile

/-!
# Cutting a text that goes on

A search that succeeds in a text succeeds at the same place in every text that goes on from it. Removing a
segment is different: what is put behind may complete a segment that was not there before, but a single
segment can do so only if the text ends with the segment then.
-/

set_option autoImplicit false

namespace FileProvider.Text

variable {s u n needle sep before after : List Char} {c : Char}

/-! ## Separators -/

/-- What was split at a separator is its two parts with the separator between them. -/
theorem eq_of_breakOn? (h : breakOn? sep s = some (before, after)) : s = before ++ (sep ++ after) := by
  induction s generalizing before with
  | nil =>
    rw [breakOn?] at h
    split at h
    · next hsep =>
      cases h
      simp [hsep]
    · cases h
  | cons c rest ih =>
    rw [breakOn?] at h
    cases hfront : sep.isPrefixOf? (c :: rest) with
    | some tail =>
      rw [hfront] at h
      cases h
      exact (List.isPrefixOf?_eq_some_iff_append_eq.mp hfront).symm
    | none =>
      rw [hfront] at h
      obtain ⟨⟨first, tail⟩, hrest, heq⟩ := Option.map_eq_some_iff.mp h
      cases heq
      rw [List.cons_append, ← ih hrest]

/-- The first separator of a text is the first one of every text that goes on from it. -/
theorem breakOn?_append (h : breakOn? sep s = some (before, after)) (more : List Char) :
    breakOn? sep (s ++ more) = some (before, after ++ more) := by
  induction s generalizing before with
  | nil =>
    rw [breakOn?] at h
    split at h
    · next hsep =>
      cases h
      subst hsep
      cases more <;> rfl
    · cases h
  | cons c rest ih =>
    rw [breakOn?] at h
    cases hfront : sep.isPrefixOf? (c :: rest) with
    | some tail =>
      rw [hfront] at h
      cases h
      have hmore : sep.isPrefixOf? (c :: (rest ++ more)) = some (after ++ more) := by
        rw [List.isPrefixOf?_eq_some_iff_append_eq, ← List.append_assoc,
          List.isPrefixOf?_eq_some_iff_append_eq.mp hfront, List.cons_append]
      rw [List.cons_append, breakOn?, hmore]
    | none =>
      rw [hfront] at h
      obtain ⟨⟨first, tail⟩, hrest, heq⟩ := Option.map_eq_some_iff.mp h
      cases heq
      -- The separator is found in the rest, so the rest is not too short for it to stand in front.
      have hmore : sep.isPrefixOf? (c :: (rest ++ more)) = none := by
        rw [Option.eq_none_iff_forall_ne_some]
        intro found hfound
        have hlen : sep.length ≤ (c :: rest).length := by
          rw [eq_of_breakOn? hrest]
          simp only [List.length_cons, List.length_append]
          omega
        have hwhole : sep <+: (c :: rest) ++ more :=
          ⟨found, List.isPrefixOf?_eq_some_iff_append_eq.mp hfound⟩
        obtain ⟨w, hw⟩ := List.prefix_of_prefix_length_le hwhole (List.prefix_append _ _) hlen
        rw [List.isPrefixOf?_eq_some_iff_append_eq.mpr hw] at hfront
        cases hfront
      rw [List.cons_append, breakOn?, hmore, ih hrest]
      rfl

/-- Where a separator stands in a text, one is found, and none stands before that one. -/
theorem exists_breakOn? (h : s = before ++ (sep ++ after)) :
    ∃ first tail, breakOn? sep s = some (first, tail) ∧ first.length ≤ before.length := by
  induction s generalizing before with
  | nil =>
    obtain ⟨rfl, hsep⟩ := List.append_eq_nil_iff.mp h.symm
    obtain ⟨rfl, -⟩ := List.append_eq_nil_iff.mp hsep
    exact ⟨[], [], rfl, Nat.le_refl 0⟩
  | cons c rest ih =>
    rw [breakOn?]
    cases hfront : sep.isPrefixOf? (c :: rest) with
    | some tail => exact ⟨[], tail, rfl, Nat.zero_le _⟩
    | none =>
      cases before with
      | nil =>
        have hthere : sep.isPrefixOf? (c :: rest) = some after :=
          List.isPrefixOf?_eq_some_iff_append_eq.mpr h.symm
        cases hthere.symm.trans hfront
      | cons d before =>
        obtain ⟨-, hrest⟩ := List.cons.inj h
        obtain ⟨first, tail, hfound, hlength⟩ := ih hrest
        exact ⟨c :: first, tail, by rw [hfound]; rfl, Nat.succ_le_succ hlength⟩

/-- A text is split at the first of the places where the separator stands. -/
theorem breakOn?_eq_some_iff :
    breakOn? sep s = some (before, after) ↔ s = before ++ (sep ++ after) ∧
      ∀ first tail, s = first ++ (sep ++ tail) → before.length ≤ first.length := by
  constructor
  · intro h
    refine ⟨eq_of_breakOn? h, fun first tail heq => ?_⟩
    obtain ⟨_, _, hfound, hlength⟩ := exists_breakOn? heq
    cases h.symm.trans hfound
    exact hlength
  · rintro ⟨heq, hfirst⟩
    obtain ⟨first, tail, hfound, hlength⟩ := exists_breakOn? heq
    have hsplit := eq_of_breakOn? hfound
    obtain ⟨rfl, hrest⟩ :=
      List.append_inj (heq.symm.trans hsplit) (Nat.le_antisymm (hfirst first tail hsplit) hlength)
    rw [hfound, List.append_cancel_left hrest]

/-! ## The last slash -/

theorem not_mem_afterLastSlash (s : List Char) : '/' ∉ afterLastSlash s := by
  rw [afterLastSlash, List.mem_reverse]
  intro h
  simpa using List.mem_takeWhile_imp h

theorem takeWhile_ne_slash (h : '/' ∉ n) : (n ++ '/' :: u).takeWhile (· ≠ '/') = n := by
  have hall : ∀ x ∈ n, decide (x ≠ '/') = true := fun x hx =>
    decide_eq_true fun heq => h (heq ▸ hx)
  rw [List.takeWhile_append_of_pos hall, List.takeWhile_cons_of_neg (by simp), List.append_nil]

theorem dropWhile_ne_slash (h : '/' ∉ n) : (n ++ '/' :: u).dropWhile (· ≠ '/') = '/' :: u := by
  have hall : ∀ x ∈ n, decide (x ≠ '/') = true := fun x hx =>
    decide_eq_true fun heq => h (heq ▸ hx)
  rw [List.dropWhile_append_of_pos hall, List.dropWhile_cons_of_neg (by simp)]

/-- What stands behind a slash, and holds none, stands behind the last one. -/
theorem afterLastSlash_append (h : '/' ∉ n) : afterLastSlash (u ++ '/' :: n) = n := by
  have hreverse : (u ++ '/' :: n).reverse = n.reverse ++ '/' :: u.reverse := by simp
  rw [afterLastSlash, hreverse, takeWhile_ne_slash (by simpa using h), List.reverse_reverse]

/-- Of a text that goes on behind a slash with none, everything through that slash is kept. -/
theorem throughLastSlash_append (h : '/' ∉ n) : throughLastSlash (u ++ '/' :: n) = u ++ ['/'] := by
  have hreverse : (u ++ '/' :: n).reverse = n.reverse ++ '/' :: u.reverse := by simp
  rw [throughLastSlash, hreverse, dropWhile_ne_slash (by simpa using h), List.reverse_cons, List.reverse_reverse]

theorem afterLastSlash_of_not_mem (h : '/' ∉ n) : afterLastSlash n = n := by
  have hall : ∀ x ∈ n.reverse, decide (x ≠ '/') = true := fun x hx =>
    decide_eq_true fun heq => h (heq ▸ List.mem_reverse.mp hx)
  rw [afterLastSlash, List.takeWhile_eq_self_iff.mpr hall, List.reverse_reverse]

theorem chopSlash_append_slash (s : List Char) : chopSlash (s ++ ['/']) = s := by
  simp [chopSlash]

/-- A text ends with the slash that is dropped, or it is the same without. -/
theorem chopSlash_cases (s : List Char) :
    (s.getLast? ≠ some '/' ∧ chopSlash s = s) ∨ s = chopSlash s ++ ['/'] := by
  unfold chopSlash
  split
  · next h =>
    obtain ⟨front, rfl⟩ := List.getLast?_eq_some_iff.mp h
    simp
  · next h => exact .inl ⟨h, rfl⟩

/-- The slash at the end of a text belongs to the last part of it that is not empty. -/
theorem chopSlash_append (hs : s ≠ []) (front : List Char) :
    chopSlash (front ++ s) = front ++ chopSlash s := by
  rcases chopSlash_cases s with ⟨hlast, hsame⟩ | hslash
  · rw [hsame, chopSlash, if_neg]
    rwa [List.getLast?_append_of_ne_nil _ hs]
  · rw [hslash, ← List.append_assoc, chopSlash_append_slash, chopSlash_append_slash]

/-- There is no slash to drop from a text that holds none. -/
theorem chopSlash_of_not_mem (h : '/' ∉ s) : chopSlash s = s := by
  rw [chopSlash, if_neg]
  exact fun hlast => h (List.mem_of_getLast? hlast)

/-- The last piece is what stands behind the last slash. -/
theorem getLast?_pieces (s : List Char) : (pieces '/' s).getLast? = some (afterLastSlash s) := by
  by_cases hslash : '/' ∈ s
  · obtain ⟨n, u, hreverse, hn⟩ := List.eq_append_cons_of_mem (List.mem_reverse.mpr hslash)
    obtain rfl : s = u.reverse ++ '/' :: n.reverse := by simpa using congrArg List.reverse hreverse
    have hlast : '/' ∉ n.reverse := by simpa using hn
    rw [pieces_append_sep, pieces_of_not_mem hlast, List.getLast?_concat, afterLastSlash_append hlast]
  · rw [pieces_of_not_mem hslash, afterLastSlash_of_not_mem hslash, List.getLast?_singleton]

/-- Once a slash is dropped from the end, there is a piece and none is empty, exactly if there was something
before and no piece but the last was empty. -/
theorem pieces_chopSlash_iff (s : List Char) :
    (chopSlash s ≠ [] ∧ ∀ p ∈ pieces '/' (chopSlash s), p ≠ []) ↔ s ≠ [] ∧ ∀ p ∈ (pieces '/' s).dropLast, p ≠ [] := by
  rcases chopSlash_cases s with ⟨hlast, hsame⟩ | hslash
  · rw [hsame]
    refine and_congr_right fun hs => ⟨fun h p hp => h p (List.dropLast_subset _ hp), fun h p hp => ?_⟩
    obtain ⟨front, hfront⟩ := List.getLast?_eq_some_iff.mp (getLast?_pieces s)
    rw [hfront, List.dropLast_concat] at h
    rw [hfront, List.mem_append, List.mem_singleton] at hp
    rcases hp with hp | rfl
    · exact h p hp
    · -- The text does not end with a slash, so something stands behind its last one.
      obtain ⟨init, c, rfl⟩ := List.eq_nil_or_concat' s |>.resolve_left hs
      have hc : c ≠ '/' := by simpa using hlast
      simp [afterLastSlash, hc]
  · have hpieces : pieces '/' s = pieces '/' (chopSlash s) ++ [[]] := by
      conv_lhs => rw [hslash]
      exact pieces_append_sep _ []
    rw [hpieces, List.dropLast_concat]
    constructor
    · rintro ⟨-, h⟩
      exact ⟨by rw [hslash]; simp, h⟩
    · rintro ⟨-, h⟩
      refine ⟨fun hnil => ?_, h⟩
      rw [hnil] at h
      exact h [] (by simp [pieces]) rfl

/-! ## Removing a segment -/

/-- The needle is found in front, or the first character is passed over. -/
theorem dropSegment_cons (needle : List Char) (c : Char) (s : List Char) :
    (∃ after, c :: s = needle ++ after ∧ atSegmentEnd after = true ∧
      dropSegment needle (c :: s) = after) ∨
    (∀ after, c :: s = needle ++ after → atSegmentEnd after = false) ∧
      dropSegment needle (c :: s) = c :: dropSegment needle s := by
  rw [dropSegment]
  cases hfront : needle.isPrefixOf? (c :: s) with
  | none =>
    refine .inr ⟨fun after heq => ?_, rfl⟩
    rw [List.isPrefixOf?_eq_some_iff_append_eq.mpr heq.symm] at hfront
    cases hfront
  | some after =>
    have heq := List.isPrefixOf?_eq_some_iff_append_eq.mp hfront
    cases hend : atSegmentEnd after with
    | true => exact .inl ⟨after, heq.symm, hend, by simp [hend]⟩
    | false =>
      refine .inr ⟨fun other hother => ?_, by simp [hend]⟩
      rw [← List.append_cancel_left (heq.trans hother)]
      exact hend

/-- Nothing is removed from a text that is shorter than the needle. -/
theorem dropSegment_of_length (h : s.length < needle.length) : dropSegment needle s = s := by
  induction s with
  | nil => rfl
  | cons c s ih =>
    rcases dropSegment_cons needle c s with ⟨after, heq, _, _⟩ | ⟨_, hdrop⟩
    · have hlen := congrArg List.length heq
      rw [List.length_append] at hlen
      omega
    · rw [hdrop, ih (Nat.lt_of_succ_lt h)]

/-- No segment is removed from a text without a slash. -/
theorem dropSegment_of_not_mem (h : '/' ∉ s) : dropSegment ('/' :: needle) s = s := by
  induction s with
  | nil => rfl
  | cons c s ih =>
    rcases dropSegment_cons ('/' :: needle) c s with ⟨after, heq, _, _⟩ | ⟨_, hdrop⟩
    · exact absurd (heq ▸ List.mem_cons_self) h
    · rw [hdrop, ih fun hmem => h (List.mem_cons_of_mem c hmem)]

/-- A segment that is found in a text is one of the pieces behind its slashes. -/
theorem mem_tail_pieces (hn : '/' ∉ n) (hend : atSegmentEnd after = true) :
    n ∈ (pieces '/' ('/' :: n ++ after)).tail := by
  rw [List.cons_append, pieces, if_pos rfl, List.tail_cons]
  cases after with
  | nil => simp [pieces_of_not_mem hn]
  | cons c rest =>
    obtain rfl : c = '/' := of_decide_eq_true hend
    rw [pieces_append_sep, pieces_of_not_mem hn]
    exact List.mem_append_left _ List.mem_cons_self

/-- A segment is not removed from a text that holds no such piece behind a slash. -/
theorem dropSegment_of_not_mem_pieces (hn : '/' ∉ n) (h : n ∉ (pieces '/' s).tail) :
    dropSegment ('/' :: n) s = s := by
  induction s with
  | nil => rfl
  | cons c s ih =>
    rcases dropSegment_cons ('/' :: n) c s with ⟨after, heq, hend, _⟩ | ⟨_, hdrop⟩
    · exact absurd (heq ▸ mem_tail_pieces hn hend) h
    · rw [hdrop, ih fun hmem => h ?_]
      by_cases hc : c = '/'
      · rw [pieces, if_pos hc]
        exact List.mem_of_mem_tail hmem
      · obtain ⟨p, ps, hp⟩ := List.exists_cons_of_ne_nil (pieces_ne_nil _ s)
        rw [hp] at hmem
        rw [pieces_cons hc hp]
        exact hmem

/-- Where a segment ends in a text that goes on with a slash and a segment: before that slash, or with
the whole text. -/
theorem segmentEnd_cases (hn : '/' ∉ n) (heq : s ++ '/' :: n = needle ++ after)
    (hend : atSegmentEnd after = true) :
    (∃ w, s = needle ++ w ∧ atSegmentEnd w = true ∧ after = w ++ '/' :: n) ∨
      after = [] ∧ s.length < needle.length := by
  rcases List.append_eq_append_iff.mp heq with ⟨w, hneedle, hrest⟩ | ⟨w, hs, hafter⟩
  · cases w with
    | nil =>
      rw [List.append_nil] at hneedle
      exact .inl ⟨[], by simp [hneedle], rfl, by simpa using hrest.symm⟩
    | cons d w =>
      -- The needle reaches into the last segment, which holds no slash.
      rw [List.cons_append] at hrest
      have hlast : n = w ++ after := (List.cons.inj hrest).2
      cases after with
      | nil => exact .inr ⟨rfl, by simp [hneedle]⟩
      | cons e after =>
        have he : e = '/' := of_decide_eq_true hend
        exact absurd (by simp [hlast, he]) hn
  · refine .inl ⟨w, hs, ?_, hafter⟩
    cases w with
    | nil => rfl
    | cons d w =>
      rw [hafter] at hend
      exact hend

/-- A slash and a segment behind a text stay there when another segment is removed: one that the text
holds, or any if they do not complete it. -/
theorem dropSegment_append (hn : '/' ∉ n)
    (h : dropSegment needle s ≠ s ∨ ¬ needle <:+ s ++ '/' :: n) (hneedle : needle.head? = some '/') :
    dropSegment needle (s ++ '/' :: n) = dropSegment needle s ++ '/' :: n := by
  obtain ⟨name, rfl⟩ : ∃ name, needle = '/' :: name := by
    cases needle with
    | nil => cases hneedle
    | cons d name =>
      cases hneedle
      exact ⟨name, rfl⟩
  induction s with
  | nil =>
    have hsuffix := h.resolve_left (not_not_intro rfl)
    rcases dropSegment_cons ('/' :: name) '/' n with ⟨after, heq, hend, _⟩ | ⟨_, hdrop⟩
    · rcases segmentEnd_cases (s := []) hn heq hend with ⟨w, hw, _⟩ | ⟨rfl, _⟩
      · cases hw
      · exact absurd ⟨[], by rw [List.nil_append, List.nil_append, heq, List.append_nil]⟩ hsuffix
    · rw [List.nil_append, hdrop, dropSegment_of_not_mem hn]
      rfl
  | cons c s ih =>
    rcases dropSegment_cons ('/' :: name) c (s ++ '/' :: n) with ⟨after, heq, hend, hdrop⟩ | ⟨hno, hdrop⟩
    · rw [List.cons_append, hdrop]
      rcases segmentEnd_cases (s := c :: s) hn heq hend with ⟨w, hw, hwend, rfl⟩ | ⟨rfl, hlen⟩
      · rcases dropSegment_cons ('/' :: name) c s with ⟨other, hother, _, hfound⟩ | ⟨hnot, _⟩
        · rw [hfound, List.append_cancel_left (hother.symm.trans hw)]
        · rw [hnot w hw] at hwend
          cases hwend
      · rcases h with h | h
        · exact absurd (dropSegment_of_length hlen) h
        · exact absurd ⟨[], by rw [List.nil_append, List.cons_append, heq, List.append_nil]⟩ h
    · rcases dropSegment_cons ('/' :: name) c s with ⟨w, hw, hwend, _⟩ | ⟨_, hpassed⟩
      · -- The segment would end before the slash that follows.
        have hmore := hno (w ++ '/' :: n) (by rw [← List.append_assoc, ← hw, List.cons_append])
        cases w with
        | nil => cases hmore
        | cons d w =>
          rw [List.cons_append] at hmore
          exact absurd (hwend.symm.trans hmore) (by decide)
      · rw [List.cons_append, hdrop, hpassed, List.cons_append, ih ?_]
        refine h.imp (fun hne heq => hne (by rw [hpassed, heq])) fun hnot hsuffix => ?_
        exact hnot (hsuffix.trans (List.suffix_cons c _))

/-- A segment that only the end completes is removed there. -/
theorem dropSegment_end (hn : '/' ∉ n) (h : dropSegment ('/' :: n) s = s) :
    dropSegment ('/' :: n) (s ++ '/' :: n) = s := by
  induction s with
  | nil =>
    rcases dropSegment_cons ('/' :: n) '/' n with ⟨after, heq, _, hdrop⟩ | ⟨hno, _⟩
    · rw [List.nil_append, hdrop, List.self_eq_append_right.mp heq]
    · cases hno [] (List.append_nil _).symm
  | cons c s ih =>
    rcases dropSegment_cons ('/' :: n) c s with ⟨w, hw, _, hfound⟩ | ⟨hnot, hpassed⟩
    · rw [hfound] at h
      rw [h] at hw
      exact absurd (List.self_eq_append_left.mp hw) (List.cons_ne_nil _ _)
    · rw [hpassed] at h
      rcases dropSegment_cons ('/' :: n) c (s ++ '/' :: n) with ⟨after, heq, hend, _⟩ | ⟨_, hdrop⟩
      · rcases segmentEnd_cases (s := c :: s) hn heq hend with ⟨w, hw, hwend, _⟩ | ⟨rfl, hlen⟩
        · rw [hnot w hw] at hwend
          cases hwend
        · have hlen := congrArg List.length heq
          simp only [List.length_cons, List.length_append, List.length_nil] at hlen
          omega
      · rw [List.cons_append, hdrop, ih (List.cons.inj h).2]

/-- When a segment is removed from a text to which a slash and a segment were added, these stay or are
what is removed. -/
theorem dropSegment_child {name : List Char} (hname : '/' ∉ name) (hn : '/' ∉ n) :
    dropSegment ('/' :: name) (s ++ '/' :: n) = dropSegment ('/' :: name) s ++ '/' :: n ∨
      dropSegment ('/' :: name) (s ++ '/' :: n) = dropSegment ('/' :: name) s := by
  by_cases hsame : dropSegment ('/' :: name) s = s
  · by_cases hsuffix : '/' :: name <:+ s ++ '/' :: n
    · obtain ⟨front, heq⟩ := hsuffix
      have hlast := congrArg afterLastSlash heq
      rw [afterLastSlash_append hname, afterLastSlash_append hn] at hlast
      subst hlast
      exact .inr (by rw [dropSegment_end hn hsame, hsame])
    · exact .inl (dropSegment_append hn (.inr hsuffix) rfl)
  · exact .inl (dropSegment_append hn (.inl hsame) rfl)

end FileProvider.Text
