import FileProvider.Proofs.Uri.Language
import Mathlib.Data.Set.Function

/-!
# Texts and their parts

A text is cut at its first separator, and behind that an authority is cut off only where a slash follows it.
Putting the parts together again undoes the cut for every text that holds a separator, and the cut undoes putting
together for just those parts that a cut can give. A scheme may end like the beginning of a separator without
completing one: no end of a separator is the beginning of another.
-/

set_option autoImplicit false

namespace FileProvider.Uri

variable {raw : String} {u : Uri} {before rest tail host path : List Char}

/-! ## The first separator -/

/-- Where a separator stands in front of a text that has another one behind its first characters, it does not
reach into that other one. -/
theorem separator_apart (h : separator.toList ++ tail = before ++ (separator.toList ++ rest)) :
    before = [] ∨ separator.toList <+: before := by
  have hseparator : separator.toList = [':', '/', '/'] := by decide
  rw [hseparator] at h ⊢
  match before with
  | [] => exact .inl rfl
  | [_] => simp at h
  | [_, _] => simp at h
  | _ :: _ :: _ :: before =>
    simp only [List.cons_append, List.cons.injEq] at h
    obtain ⟨rfl, rfl, rfl, -⟩ := h
    exact .inr ⟨before, rfl⟩

/-- A text is split into two by its first separator exactly if none stands in the first part. -/
theorem splits_iff :
    Splits raw before rest ↔
      raw.toList = before ++ (separator.toList ++ rest) ∧ ¬ separator.toList <:+: before := by
  refine and_congr_right fun heq => ⟨fun hfirst ⟨front, back, hinfix⟩ => ?_, fun hnot front tail hother => ?_⟩
  · have hlength := hfirst front (back ++ (separator.toList ++ rest)) (by rw [heq, ← hinfix]; simp)
    have hsome : 0 < separator.toList.length := by decide
    rw [← hinfix, List.length_append, List.length_append] at hlength
    omega
  · rw [heq] at hother
    rcases List.append_eq_append_iff.mp hother with ⟨w, rfl, -⟩ | ⟨w, rfl, hw⟩
    · rw [List.length_append]
      exact Nat.le_add_right _ _
    · rcases separator_apart hw with rfl | hstart
      · rw [List.append_nil]
      · exact absurd (hstart.isInfix.trans (List.suffix_append front w).isInfix) hnot

/-- A text is split into two exactly if it holds a separator. -/
theorem exists_splits_iff : (∃ before rest, Splits raw before rest) ↔ separator.toList <:+: raw.toList := by
  constructor
  · rintro ⟨before, rest, heq, -⟩
    exact ⟨before, rest, by rw [heq, List.append_assoc]⟩
  · rintro ⟨before, rest, heq⟩
    obtain ⟨first, tail, hbreak, -⟩ := Text.exists_breakOn? (heq.symm.trans (List.append_assoc _ _ _))
    exact ⟨first, tail, Text.breakOn?_eq_some_iff.mp hbreak⟩

/-! ## The authority -/

/-- What follows the separator is an authority and a path with a slash in front, or a path alone, which begins
with a slash or holds none. -/
def Cut (host path : List Char) : Prop :=
  (host ≠ [] ∧ '/' ∉ host ∧ path.head? = some '/') ∨ (host = [] ∧ (path.head? = some '/' ∨ '/' ∉ path))

instance (host path : List Char) : Decidable (Cut host path) := inferInstanceAs (Decidable (_ ∧ _ ∨ _ ∧ _))

theorem splitAuthority_eq_iff : splitAuthority rest = (host, path) ↔ rest = host ++ path ∧ Cut host path := by
  constructor
  · intro h
    rcases Text.cases_slash rest with hno | ⟨front, back, rfl, hfront⟩
    · rw [splitAuthority_of_not_mem hno] at h
      cases h
      exact ⟨rfl, .inr ⟨rfl, .inr hno⟩⟩
    · rw [splitAuthority_append hfront] at h
      cases h
      by_cases hempty : host = []
      · exact ⟨rfl, .inr ⟨hempty, .inl rfl⟩⟩
      · exact ⟨rfl, .inl ⟨hempty, hfront, rfl⟩⟩
  · rintro ⟨rfl, ⟨-, hhost, hpath⟩ | ⟨rfl, hpath | hpath⟩⟩
    · obtain ⟨path, rfl⟩ := List.head?_eq_some_iff.mp hpath
      exact splitAuthority_append hhost path
    · obtain ⟨path, rfl⟩ := List.head?_eq_some_iff.mp hpath
      exact splitAuthority_append List.not_mem_nil path
    · exact splitAuthority_of_not_mem hpath

/-! ## Texts and parts -/

/-- Whether three parts can be those of a text: no separator stands in the scheme, and an authority and a path can
be told apart. -/
structure WellFormed (u : Uri) : Prop where
  /-- The first separator is the one behind the scheme. -/
  scheme : ¬ separator.toList <:+: u.scheme.toList
  cut : Cut u.authority.toList u.path.toList

/-- A text has the parts into which the first separator and the authority cut it. -/
theorem split?_eq_some_iff :
    split? raw = some u ↔
      ∃ rest, Splits raw u.scheme.toList rest ∧ splitAuthority rest = (u.authority.toList, u.path.toList) := by
  rw [split?, Option.map_eq_some_iff]
  constructor
  · rintro ⟨⟨scheme, rest⟩, hbreak, rfl⟩
    refine ⟨rest, ?_, ?_⟩
    · rw [String.toList_ofList]
      exact Text.breakOn?_eq_some_iff.mp hbreak
    · rw [String.toList_ofList, String.toList_ofList]
  · rintro ⟨rest, hsplits, hauthority⟩
    refine ⟨(u.scheme.toList, rest), Text.breakOn?_eq_some_iff.mpr hsplits, ?_⟩
    dsimp only
    rw [hauthority, String.ofList_toList, String.ofList_toList, String.ofList_toList]

theorem toList_text (u : Uri) :
    u.text.toList = u.scheme.toList ++ (separator.toList ++ (u.authority.toList ++ u.path.toList)) := by
  rw [text, String.toList_append, String.toList_append, String.toList_append]
  simp only [List.append_assoc]

/-- The parts of a text are the well-formed ones that are written as that text. -/
theorem split?_eq_some_iff_text : split? raw = some u ↔ u.WellFormed ∧ u.text = raw := by
  rw [split?_eq_some_iff, ← String.toList_inj, toList_text]
  constructor
  · rintro ⟨rest, hsplits, hauthority⟩
    obtain ⟨rfl, hcut⟩ := splitAuthority_eq_iff.mp hauthority
    obtain ⟨heq, hscheme⟩ := splits_iff.mp hsplits
    exact ⟨⟨hscheme, hcut⟩, heq.symm⟩
  · rintro ⟨⟨hscheme, hcut⟩, heq⟩
    exact ⟨_, splits_iff.mpr ⟨heq.symm, hscheme⟩, splitAuthority_eq_iff.mpr ⟨rfl, hcut⟩⟩

/-- Cutting and putting together are inverse bijections between the texts that hold a separator and the
well-formed parts: those texts have parts, and the parts of a text are the well-formed ones that are written as
that text. -/
theorem split?_inverts_text :
    (∀ raw, (∃ u, split? raw = some u) ↔ separator.toList <:+: raw.toList) ∧
      (∀ raw u, split? raw = some u ↔ u.WellFormed ∧ u.text = raw) ∧
      Set.BijOn text {u | u.WellFormed} {raw | separator.toList <:+: raw.toList} := by
  have hsome : ∀ raw, (∃ u, split? raw = some u) ↔ separator.toList <:+: raw.toList := by
    intro raw
    rw [← exists_splits_iff]
    constructor
    · rintro ⟨u, hu⟩
      obtain ⟨rest, hsplits, -⟩ := split?_eq_some_iff.mp hu
      exact ⟨_, rest, hsplits⟩
    · rintro ⟨before, rest, hsplits⟩
      exact ⟨_, split?_of_breakOn? (Text.breakOn?_eq_some_iff.mpr hsplits)⟩
  refine ⟨hsome, fun _ _ => split?_eq_some_iff_text, fun u hu => ?_, fun u hu v hv htext => ?_, fun raw hraw => ?_⟩
  · exact (hsome u.text).mp ⟨u, split?_eq_some_iff_text.mpr ⟨hu, rfl⟩⟩
  · have hparts := split?_eq_some_iff_text.mpr ⟨hu, rfl⟩
    rw [htext, split?_eq_some_iff_text.mpr ⟨hv, rfl⟩] at hparts
    exact (Option.some.inj hparts).symm
  · obtain ⟨u, hu⟩ := (hsome raw).mpr hraw
    exact ⟨u, split?_eq_some_iff_text.mp hu⟩

/-- A scheme may end with most of a separator, and the parts of a text may hold more separators. -/
example : split? "a:/://b/c://d" = some ⟨"a:/", "b", "/c://d"⟩ := by decide +kernel

end FileProvider.Uri
