import Mathlib.Computability.Language
import FileProvider.Proofs.Uri.Child

/-!
# The language of the addresses

What a provider answers to is described by a regular expression over what follows the first separator. It is
recognised in another way: a text is scanned for illegal characters, split, cut into authority and path and put
together again, stripped of a slash at either end, and cut into pieces, none of which may be empty. Both ways
give the same texts.
-/

set_option autoImplicit false

namespace FileProvider.Uri

open scoped Computability

/-! ## The language -/

/-- The texts of one character that is no slash. -/
def nonSlash : Language Char := {s | ∃ c, c ≠ '/' ∧ s = [c]}

/-- The text of one slash. -/
def slash : Language Char := {['/']}

/-- The segments: `[^/]+`. -/
def segment : Language Char := nonSlash * nonSlash∗

/-- The segments, each with a slash behind it or not: `[^/]+/?`. -/
def step : Language Char := segment * (1 + slash)

/-- The segment paths: `/([^/]+/?)+`. -/
def segmentPaths : Language Char := slash * (step * step∗)

/-- Whether a text is split into two by the first of its separators. -/
def Splits (raw : String) (before after : List Char) : Prop :=
  raw.toList = before ++ (separator.toList ++ after) ∧
    ∀ first tail, raw.toList = first ++ (separator.toList ++ tail) → before.length ≤ first.length

/-- The texts without white space and controls in which `file` stands before the first separator, or `datashare`,
and then a segment path behind it. -/
def addresses : Set String :=
  {raw | (∀ c ∈ raw.toList, Text.isBlank c = false ∧ Text.isControl c = false) ∧
    ∃ before after, Splits raw before after ∧
      (String.ofList before = "file" ∨ String.ofList before = "datashare" ∧ after ∈ segmentPaths)}

/-! ## Segments -/

variable {s p : List Char}

theorem cons_mem_slash_mul {c : Char} {l : Language Char} : c :: s ∈ slash * l ↔ c = '/' ∧ s ∈ l := by
  rw [Language.mem_mul]
  constructor
  · rintro ⟨front, rfl, rest, hrest, heq⟩
    obtain ⟨rfl, rfl⟩ := List.cons.inj heq
    exact ⟨rfl, hrest⟩
  · rintro ⟨rfl, hs⟩
    exact ⟨['/'], rfl, s, hs, rfl⟩

/-- A text is made of characters other than slashes exactly if there is no slash in it. -/
theorem mem_kstar_nonSlash : s ∈ nonSlash∗ ↔ '/' ∉ s := by
  rw [Language.mem_kstar]
  constructor
  · rintro ⟨parts, rfl, hparts⟩ hmem
    obtain ⟨part, hpart, hslash⟩ := List.mem_flatten.mp hmem
    obtain ⟨c, hc, rfl⟩ := hparts part hpart
    exact hc (List.mem_singleton.mp hslash).symm
  · intro h
    refine ⟨s.map fun c => [c], by rw [← List.flatMap_def, List.flatMap_singleton'], fun part hpart => ?_⟩
    obtain ⟨c, hc, rfl⟩ := List.mem_map.mp hpart
    exact ⟨c, fun heq => h (heq ▸ hc), rfl⟩

theorem mem_segment : s ∈ segment ↔ s ≠ [] ∧ '/' ∉ s := by
  rw [segment, Language.mem_mul]
  constructor
  · rintro ⟨front, ⟨c, hc, rfl⟩, rest, hrest, rfl⟩
    rw [mem_kstar_nonSlash] at hrest
    exact ⟨List.cons_ne_nil c rest, by simpa using ⟨hc.symm, hrest⟩⟩
  · rintro ⟨hne, hslash⟩
    obtain ⟨c, rest, rfl⟩ := List.exists_cons_of_ne_nil hne
    obtain ⟨hc, hrest⟩ := not_or.mp (mt List.mem_cons.mpr hslash)
    exact ⟨[c], ⟨c, Ne.symm hc, rfl⟩, rest, mem_kstar_nonSlash.mpr hrest, rfl⟩

theorem mem_step : s ∈ step ↔ s ∈ segment ∨ ∃ p ∈ segment, s = p ++ ['/'] := by
  rw [step, mul_add, mul_one]
  constructor
  · rintro (h | ⟨p, hp, _, rfl, rfl⟩)
    · exact .inl h
    · exact .inr ⟨p, hp, rfl⟩
  · rintro (h | ⟨p, hp, rfl⟩)
    · exact .inl h
    · exact .inr (Language.append_mem_mul hp rfl)

/-- Steps begin with one of them and go on with others. -/
theorem append_mem_kstar_step (hp : p ∈ step) (hs : s ∈ step∗) : p ++ s ∈ step∗ := by
  obtain ⟨steps, rfl, hsteps⟩ := Language.mem_kstar.mp hs
  exact Language.mem_kstar.mpr ⟨p :: steps, rfl, List.forall_mem_cons.mpr ⟨hp, hsteps⟩⟩

/-! ## Steps -/

/-- One more step in front leaves no piece empty that is not the last one. -/
theorem pieces_step (hp : p ∈ step) (h : ∀ q ∈ (Text.pieces '/' s).dropLast, q ≠ []) :
    ∀ q ∈ (Text.pieces '/' (p ++ s)).dropLast, q ≠ [] := by
  rcases mem_step.mp hp with hsegment | ⟨p, hsegment, rfl⟩
  · obtain ⟨hne, hslash⟩ := mem_segment.mp hsegment
    obtain ⟨q, qs, hpieces⟩ := List.exists_cons_of_ne_nil (Text.pieces_ne_nil _ s)
    rw [Text.pieces_append_of_not_mem hslash hpieces]
    cases qs with
    | nil => simp
    | cons q' qs =>
      rw [hpieces, List.dropLast_cons_cons, List.forall_mem_cons] at h
      rw [List.dropLast_cons_cons, List.forall_mem_cons]
      exact ⟨by simp [hne], h.2⟩
  · obtain ⟨hne, hslash⟩ := mem_segment.mp hsegment
    rw [List.append_assoc, List.singleton_append, Text.pieces_append_sep, Text.pieces_of_not_mem hslash,
      List.dropLast_append_of_ne_nil (Text.pieces_ne_nil _ s), List.singleton_append, List.forall_mem_cons]
    exact ⟨hne, h⟩

/-- A text is made of steps exactly if no piece of it is empty but, perhaps, the last one. -/
theorem mem_kstar_step : s ∈ step∗ ↔ ∀ q ∈ (Text.pieces '/' s).dropLast, q ≠ [] := by
  constructor
  · intro h
    obtain ⟨steps, rfl, hsteps⟩ := Language.mem_kstar.mp h
    clear h
    induction steps with
    | nil => simp [Text.pieces]
    | cons p steps ih =>
      obtain ⟨hp, hrest⟩ := List.forall_mem_cons.mp hsteps
      exact pieces_step hp (ih hrest)
  · intro h
    -- By the pieces: each of them but the last one is a segment, and a slash stands behind it.
    induction hpieces : Text.pieces '/' s generalizing s with
    | nil => exact absurd hpieces (Text.pieces_ne_nil _ s)
    | cons p ps ih =>
      rcases Text.cases_slash s with hslash | ⟨front, rest, rfl, hslash⟩
      · by_cases hnil : s = []
        · rw [hnil]
          exact Language.nil_mem_kstar step
        · have hstep : s ∈ step := mem_step.mpr (.inl (mem_segment.mpr ⟨hnil, hslash⟩))
          simpa using append_mem_kstar_step hstep (Language.nil_mem_kstar step)
      · have hsplit : Text.pieces '/' (front ++ '/' :: rest) = front :: Text.pieces '/' rest := by
          rw [Text.pieces_append_sep, Text.pieces_of_not_mem hslash, List.singleton_append]
        rw [hsplit, List.dropLast_cons_of_ne_nil (Text.pieces_ne_nil _ rest), List.forall_mem_cons] at h
        obtain ⟨rfl, hps⟩ := List.cons.inj (hsplit.symm.trans hpieces)
        have hstep : front ++ ['/'] ∈ step := mem_step.mpr (.inr ⟨front, mem_segment.mpr ⟨h.1, hslash⟩, rfl⟩)
        rw [List.append_cons]
        exact append_mem_kstar_step hstep (ih h.2 hps)

/-- One step or more are as many as there are, if there is anything at all. -/
theorem mem_step_mul_kstar : s ∈ step * step∗ ↔ s ≠ [] ∧ s ∈ step∗ := by
  constructor
  · rintro ⟨p, hp, rest, hrest, rfl⟩
    refine ⟨fun heq => ?_, append_mem_kstar_step hp hrest⟩
    obtain ⟨rfl, -⟩ := List.append_eq_nil_iff.mp heq
    rcases mem_step.mp hp with hsegment | ⟨q, -, hq⟩
    · exact (mem_segment.mp hsegment).1 rfl
    · simp at hq
  · rintro ⟨hne, hs⟩
    have hs' : s ∈ (1 : Language Char) + step * step∗ := (Language.one_add_self_mul_kstar_eq_kstar step).symm ▸ hs
    exact hs'.resolve_left hne

/-! ## Addresses -/

/-- The segment paths are what is recognised as such. -/
theorem isSegmentPath_iff (path : String) : isSegmentPath path = true ↔ path.toList ∈ segmentPaths := by
  rw [segmentPaths, isSegmentPath]
  cases path.toList with
  | nil =>
    have hnil : [] ∉ slash * (step * step∗) := by
      rintro ⟨_, rfl, _, -, heq⟩
      cases heq
    simpa using hnil
  | cons c rest =>
    rw [cons_mem_slash_mul, mem_step_mul_kstar, mem_kstar_step, ← Text.pieces_chopSlash_iff]
    simp [and_assoc]

/-- What follows the separator of a text that is split is the remainder of the URI. -/
theorem exists_split?_iff (raw : String) (ok : String → List Char → Prop) :
    (∃ u, split? raw = some u ∧ ok u.scheme u.remainder.toList) ↔
      ∃ before after, Splits raw before after ∧ ok (String.ofList before) after := by
  constructor
  · rintro ⟨u, hu, hok⟩
    obtain ⟨⟨before, after⟩, hbreak, -⟩ := Option.map_eq_some_iff.mp hu
    obtain ⟨v, hv, hscheme, hrest⟩ := remainder_of_breakOn? hbreak
    obtain rfl : u = v := Option.some.inj (hu.symm.trans hv)
    exact ⟨before, after, Text.breakOn?_eq_some_iff.mp hbreak, hscheme ▸ hrest ▸ hok⟩
  · rintro ⟨before, after, hsplits, hok⟩
    obtain ⟨u, hu, hscheme, hrest⟩ := remainder_of_breakOn? (Text.breakOn?_eq_some_iff.mpr hsplits)
    exact ⟨u, hu, hscheme.symm ▸ hrest.symm ▸ hok⟩

/-- A provider answers to the addresses. -/
theorem isAddress_iff_mem (raw : String) : isAddress raw = true ↔ raw ∈ addresses := by
  have hlegal : ∀ c, isIllegal c = false ↔ Text.isBlank c = false ∧ Text.isControl c = false :=
    fun c => Bool.or_eq_false_iff
  simp only [isAddress_iff, addresses, Set.mem_ofPred_eq, hlegal, isSegmentPath_iff]
  exact and_congr_right fun _ =>
    exists_split?_iff raw fun scheme rest => scheme = fileScheme ∨ scheme = providerScheme ∧ rest ∈ segmentPaths

end FileProvider.Uri
