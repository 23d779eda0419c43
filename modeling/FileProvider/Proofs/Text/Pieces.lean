import FileProvider.Text.Search

/-!
# The pieces between separators

Cutting at a separator undoes joining with it. A piece never holds the separator, what is without one is
its only piece, and the pieces of two parts with a separator between them are the pieces of the one
followed by those of the other. Mostly the separator is a slash, and it separates the segments of a text
or the steps of a path.
-/

set_option autoImplicit false

namespace FileProvider.Text

variable {α : Type} [DecidableEq α] {sep c : α} {rest p : List α} {ps : List (List α)}

/-- There is always a piece, though it may be empty. -/
theorem pieces_ne_nil (sep : α) (s : List α) : pieces sep s ≠ [] := by
  cases s with
  | nil => simp only [pieces, ne_eq, List.cons_ne_self, not_false_eq_true]
  | cons c rest =>
    rw [pieces]
    split
    · exact List.cons_ne_nil _ _
    · split <;> exact List.cons_ne_nil _ _

/-- What is no separator goes to the front of the first piece. -/
theorem pieces_cons (hc : c ≠ sep) (hrest : pieces sep rest = p :: ps) :
    pieces sep (c :: rest) = (c :: p) :: ps := by
  rw [pieces, if_neg hc, hrest]

/-- A separator at the front leaves an empty piece before it. -/
theorem pieces_cons_sep (rest : List α) : pieces sep (sep :: rest) = [] :: pieces sep rest := by
  rw [pieces, if_pos rfl]

/-- A separator separates the pieces before it from those behind it. -/
theorem pieces_append_sep (a b : List α) : pieces sep (a ++ sep :: b) = pieces sep a ++ pieces sep b := by
  induction a with
  | nil => exact pieces_cons_sep b
  | cons c a ih =>
    rw [List.cons_append]
    by_cases hc : c = sep
    · rw [pieces, if_pos hc, pieces, if_pos hc, ih, List.cons_append]
    · obtain ⟨p, ps, hp⟩ := List.exists_cons_of_ne_nil (pieces_ne_nil sep a)
      have happ : pieces sep (a ++ sep :: b) = p :: (ps ++ pieces sep b) := by rw [ih, hp, List.cons_append]
      rw [pieces_cons hc hp, pieces_cons hc happ, List.cons_append]

/-- What is without a separator is its only piece. -/
theorem pieces_of_not_mem {s : List α} (h : sep ∉ s) : pieces sep s = [s] := by
  induction s with
  | nil => rfl
  | cons c rest ih =>
    have hc : c ≠ sep := fun heq => h (heq ▸ List.mem_cons_self)
    exact pieces_cons hc (ih fun hmem => h (List.mem_cons_of_mem _ hmem))

/-- What is without a separator goes to the front of the first piece. -/
theorem pieces_append_of_not_mem {front s : List α} (hfront : sep ∉ front) (h : pieces sep s = p :: ps) :
    pieces sep (front ++ s) = (front ++ p) :: ps := by
  induction front with
  | nil => exact h
  | cons c front ih =>
    obtain ⟨hc, hrest⟩ := not_or.mp (mt List.mem_cons.mpr hfront)
    exact pieces_cons (Ne.symm hc) (ih hrest)

/-- A text has no slash, or it goes on behind its first one. -/
theorem cases_slash (s : List Char) : '/' ∉ s ∨ ∃ front rest, s = front ++ '/' :: rest ∧ '/' ∉ front := by
  by_cases h : '/' ∈ s
  · obtain ⟨front, rest, heq, hfront⟩ := List.eq_append_cons_of_mem h
    exact .inr ⟨front, rest, heq, hfront⟩
  · exact .inl h

/-- No piece holds the separator. -/
theorem not_mem_of_mem_pieces {s p : List α} (h : p ∈ pieces sep s) : sep ∉ p := by
  induction s generalizing p with
  | nil =>
    rw [pieces, List.mem_singleton] at h
    exact h ▸ List.not_mem_nil
  | cons c rest ih =>
    obtain ⟨q, qs, hq⟩ := List.exists_cons_of_ne_nil (pieces_ne_nil sep rest)
    by_cases hc : c = sep
    · rw [pieces, if_pos hc, List.mem_cons] at h
      rcases h with rfl | h
      · exact List.not_mem_nil
      · exact ih h
    · rw [pieces_cons hc hq, List.mem_cons] at h
      rcases h with rfl | h
      · have hq' : sep ∉ q := ih (hq ▸ List.mem_cons_self)
        rw [List.mem_cons, not_or]
        exact ⟨Ne.symm hc, hq'⟩
      · exact ih (hq ▸ List.mem_cons_of_mem _ h)

/-- Pieces may be translated one by one if nothing else is translated to the separator. -/
theorem pieces_map {β : Type} [DecidableEq β] {f : α → β} (hf : ∀ a, f a = f sep → a = sep) (s : List α) :
    pieces (f sep) (s.map f) = (pieces sep s).map (List.map f) := by
  induction s with
  | nil => rfl
  | cons c rest ih =>
    rw [List.map_cons]
    by_cases hc : c = sep
    · rw [hc, pieces_cons_sep, pieces_cons_sep, ih]
      rfl
    · obtain ⟨p, ps, hp⟩ := List.exists_cons_of_ne_nil (pieces_ne_nil sep rest)
      rw [hp] at ih
      rw [pieces_cons hc hp, pieces_cons (mt (hf c) hc) ih]
      rfl

end FileProvider.Text
