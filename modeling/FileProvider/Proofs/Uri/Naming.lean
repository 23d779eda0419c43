import FileProvider.Proofs.Uri.Addressed
import FileProvider.Proofs.Uri.Parts
import FileProvider.Proofs.Uri.Place

/-!
# The last segment

An address of the provider's own scheme is made of segments: the scheme, a separator, a slash before each segment,
and one slash more at the end or not. Once an address is written so, what the functions on its last segment do can
be read off: a child has one segment more and no slash at its end, a renamed address has another last segment and
keeps its end, and the name of an entry is the last segment. The laws between the three follow. A bundle that is one
segment is left out of a list of segments, so the child of an address leads to the child of that name unless the
name is the bundle itself.
-/

set_option autoImplicit false

namespace FileProvider.Uri

variable {raw n bundle : String} {before segments : List (List Char)} {last : List Char}

/-! ## Addresses of the provider -/

/-- Whether a URI is an address of the provider's own scheme. -/
def IsProvided (raw : String) : Prop :=
  isAddress raw = true ∧ ∃ u, split? raw = some u ∧ u.scheme = providerScheme

/-- Whether a text can be a segment of an address: it is not empty and holds no slash, no white space and no
control. -/
structure IsSegment (s : List Char) : Prop where
  ne_nil : s ≠ []
  no_slash : '/' ∉ s
  legal : ∀ c ∈ s, isIllegal c = false

/-- Whether a text holds no white space and no control is a matter of looking at its characters one by one. -/
theorem forall_legal_iff {s : List Char} : (∀ c ∈ s, isIllegal c = false) ↔ s.all (fun c => !isIllegal c) = true := by
  simp only [List.all_eq_true, Bool.not_eq_true']

instance (s : List Char) : Decidable (IsSegment s) :=
  decidable_of_iff (s ≠ [] ∧ '/' ∉ s ∧ s.all (fun c => !isIllegal c) = true)
    ⟨fun ⟨hne, hslash, hall⟩ => ⟨hne, hslash, forall_legal_iff.mpr hall⟩,
      fun h => ⟨h.ne_nil, h.no_slash, forall_legal_iff.mp h.legal⟩⟩

/-- What stands at the end of an address. -/
def ending (slash : Bool) : List Char := if slash then ['/'] else []

@[simp] theorem ending_false : ending false = [] := rfl

@[simp] theorem ending_true : ending true = ['/'] := rfl

/-- An address ends as what it is made of does, or with one slash more. -/
theorem exists_ending_iff {rest s : List Char} :
    (∃ slash, rest = s ++ ending slash) ↔ rest = s ∨ rest = s ++ ['/'] := by
  rw [Bool.exists_bool, ending_false, ending_true, List.append_nil]

/-- The address that is made of some segments, with a slash at its end or not. -/
def address (segments : List (List Char)) (slash : Bool) : String :=
  String.ofList (providerScheme.toList ++ (separator.toList ++ (Text.slashed segments ++ ending slash)))

theorem toList_address (segments : List (List Char)) (slash : Bool) :
    (address segments slash).toList
      = providerScheme.toList ++ (separator.toList ++ (Text.slashed segments ++ ending slash)) :=
  String.toList_ofList

/-- A slash at the end of segments does not keep them from being a segment path. -/
theorem isSegmentPath_ending (hne : segments ≠ []) (h : ∀ s ∈ segments, IsSegment s) (slash : Bool) :
    isSegmentPath (String.ofList (Text.slashed segments ++ ending slash)) = true := by
  have hall : ∀ s ∈ segments, s ≠ [] ∧ '/' ∉ s := fun s hs => ⟨(h s hs).ne_nil, (h s hs).no_slash⟩
  have hpath := isSegmentPath_slashed hne hall
  cases slash with
  | false =>
    rw [ending_false, List.append_nil]
    exact hpath
  | true =>
    have hchild : isSegmentPath (String.ofList (Text.chopSlash (Text.slashed segments) ++ '/' :: "".toList)) = true :=
      isSegmentPath_child hpath (by decide)
    rwa [Text.chopSlash_slashed hall] at hchild

/-- What is made of segments is an address of the provider's own scheme. -/
theorem isProvided_address (hne : segments ≠ []) (h : ∀ s ∈ segments, IsSegment s) (slash : Bool) :
    IsProvided (address segments slash) := by
  have hlegal : ∀ c ∈ (address segments slash).toList, isIllegal c = false := by
    intro c hc
    have hfront : ∀ c ∈ providerScheme.toList ++ separator.toList, isIllegal c = false :=
      forall_legal_iff.mpr (by decide)
    have hending : ∀ c ∈ ending slash, isIllegal c = false := forall_legal_iff.mpr (by cases slash <;> decide)
    rw [toList_address, ← List.append_assoc, ← List.append_assoc, List.mem_append, List.mem_append] at hc
    rcases hc with (hc | hc) | hc
    · exact hfront c hc
    · obtain ⟨s, hs, hc⟩ := List.mem_flatMap.mp hc
      rcases List.mem_cons.mp hc with rfl | hc
      · decide
      · exact (h s hs).legal c hc
    · exact hending c hc
  have hscheme : ¬ separator.toList <:+: providerScheme.toList := by decide
  have hparts : split? (address segments slash)
      = some ⟨providerScheme, "", String.ofList (Text.slashed segments ++ ending slash)⟩ := by
    refine split?_eq_some_iff_text.mpr ⟨⟨hscheme, .inr ⟨rfl, .inl ?_⟩⟩, ?_⟩
    · obtain ⟨s, segments, rfl⟩ := List.exists_cons_of_ne_nil hne
      rw [String.toList_ofList]
      rfl
    · rw [← String.toList_inj, toList_text, toList_address]
      rw [String.toList_empty, List.nil_append, String.toList_ofList]
  have hpath : isSegmentPath ("" ++ String.ofList (Text.slashed segments ++ ending slash)) = true := by
    rw [String.empty_append]
    exact isSegmentPath_ending hne h slash
  exact ⟨isAddress_iff.mpr ⟨hlegal, _, hparts, .inr ⟨rfl, hpath⟩⟩, _, hparts, rfl⟩

/-- An address of the provider's own scheme is made of segments. -/
theorem IsProvided.exists_address (h : IsProvided raw) :
    ∃ before last slash, (∀ s ∈ before ++ [last], IsSegment s) ∧ raw = address (before ++ [last]) slash := by
  obtain ⟨haddress, u, hu, hscheme⟩ := h
  obtain ⟨segments, rest, hne, hall, ⟨htext, -⟩, hrest⟩ := exists_segments_of_isAddress haddress hu hscheme
  obtain ⟨slash, rfl⟩ := exists_ending_iff.mpr hrest
  have hlegal : ∀ s ∈ segments, ∀ c ∈ s, isIllegal c = false := by
    intro s hs c hc
    refine (isAddress_iff.mp haddress).1 c ?_
    have hmem : c ∈ Text.slashed segments := List.mem_flatMap.mpr ⟨s, hs, List.mem_cons_of_mem _ hc⟩
    rw [htext]
    simp only [List.mem_append, hmem, true_or, or_true]
  obtain ⟨before, last, rfl⟩ := List.eq_nil_or_concat' segments |>.resolve_left hne
  refine ⟨before, last, slash, fun s hs => ⟨(hall s hs).1, (hall s hs).2, hlegal s hs⟩, ?_⟩
  rw [← String.toList_inj, htext, toList_address]

/-! ## What is done with the last segment -/

section

variable (hlast : IsSegment last) (before : List (List Char)) (slash : Bool)

include hlast

/-- The slash at the end of an address is the one that is dropped. -/
theorem chopSlash_address :
    Text.chopSlash (address (before ++ [last]) slash).toList
      = providerScheme.toList ++ (separator.toList ++ Text.slashed before) ++ '/' :: last := by
  have hfront : (address (before ++ [last]) slash).toList
      = providerScheme.toList ++ (separator.toList ++ Text.slashed before) ++ '/' :: last ++ ending slash := by
    rw [toList_address, Text.slashed_concat]
    simp only [List.append_assoc, List.cons_append]
  rw [hfront]
  cases slash with
  | false =>
    rw [ending_false, List.append_nil, List.append_cons, Text.chopSlash_append hlast.ne_nil,
      Text.chopSlash_of_not_mem hlast.no_slash]
  | true => exact Text.chopSlash_append_slash _

/-- An address ends with a slash if it was made with one. -/
theorem getLast?_address : (address (before ++ [last]) slash).toList.getLast? = some '/' ↔ slash = true := by
  rw [toList_address, Text.slashed_concat]
  cases slash with
  | false =>
    rw [ending_false, List.append_nil, List.append_cons, ← List.append_assoc,
      ← List.append_assoc, List.getLast?_append_of_ne_nil _ hlast.ne_nil]
    exact iff_of_false (fun h => hlast.no_slash (List.mem_of_getLast? h)) Bool.false_ne_true
  | true =>
    rw [ending_true, ← List.append_assoc, ← List.append_assoc, List.getLast?_concat]
    exact iff_of_true rfl rfl

/-- A child has one segment more. -/
theorem child_address (n : String) :
    child (address (before ++ [last]) slash) n = address (before ++ [last] ++ [n.toList]) false := by
  rw [← String.toList_inj, toList_child, chopSlash_address hlast, toList_address, Text.slashed_concat,
    Text.slashed_concat, ending_false, List.append_nil]
  simp only [List.append_assoc]

/-- The name of an entry is its last segment. -/
theorem lastSegment_address : lastSegment (address (before ++ [last]) slash) = String.ofList last := by
  rw [lastSegment, chopSlash_address hlast, Text.afterLastSlash_append hlast.no_slash]

/-- A renamed address has another last segment. -/
theorem renamed_address (n : String) :
    renamed (address (before ++ [last]) slash) n = address (before ++ [n.toList]) slash := by
  have hend : (if (address (before ++ [last]) slash).toList.getLast? = some '/' then "/" else "").toList
      = ending slash := by
    rw [if_congr (getLast?_address hlast before slash) rfl rfl]
    cases slash <;> rfl
  rw [← String.toList_inj, renamed, String.toList_append, String.toList_append, hend, String.toList_ofList,
    chopSlash_address hlast, Text.throughLastSlash_append hlast.no_slash, toList_address, Text.slashed_concat]
  simp only [List.append_assoc, List.cons_append, List.nil_append]

end

/-- For an address of the provider's own scheme and a name that can be a segment, the child and the renamed address
are such addresses, and have the name that they were given; renaming keeps the end of an address and is undone by the
old name; and renaming a child gives the child of the other name, whatever that is. -/
theorem last_segment_laws (h : IsProvided raw) (hn : IsSegment n.toList) (m : String) :
    (IsProvided (child raw n) ∧ IsProvided (renamed raw n)) ∧
      (lastSegment (child raw n) = n ∧ lastSegment (renamed raw n) = n) ∧
      ((renamed raw n).toList.getLast? = some '/' ↔ raw.toList.getLast? = some '/') ∧
      renamed (renamed raw n) (lastSegment raw) = raw ∧ renamed (child raw n) m = child raw m := by
  obtain ⟨before, last, slash, hall, rfl⟩ := h.exists_address
  obtain ⟨hbefore, hlast⟩ := List.forall_mem_append.mp hall
  replace hlast := hlast last (List.mem_singleton_self last)
  have hchild : IsProvided (address (before ++ [last] ++ [n.toList]) false) :=
    isProvided_address (List.concat_ne_nil _ _)
      (List.forall_mem_append.mpr ⟨hall, List.forall_mem_singleton.mpr hn⟩) false
  have hrenamed : IsProvided (address (before ++ [n.toList]) slash) :=
    isProvided_address (List.concat_ne_nil _ _)
      (List.forall_mem_append.mpr ⟨hbefore, List.forall_mem_singleton.mpr hn⟩) slash
  rw [child_address hlast, child_address hlast, renamed_address hlast, renamed_address hn, renamed_address hn,
    lastSegment_address hlast, lastSegment_address hn, lastSegment_address hn, getLast?_address hn,
    getLast?_address hlast, String.toList_ofList, String.ofList_toList]
  exact ⟨⟨hchild, hrenamed⟩, ⟨rfl, rfl⟩, Iff.rfl, rfl, rfl⟩

/-- A child of an address that ends with a slash, and the same address with another last segment. -/
theorem last_segment_laws_slash :
    child "datashare:///r/ü/" "x" = "datashare:///r/ü/x" ∧ renamed "datashare:///r/ü/" "x" = "datashare:///r/x/" ∧
      IsProvided "datashare:///r/ü/x" ∧ IsProvided "datashare:///r/x/" ∧
      lastSegment "datashare:///r/x/" = "x" ∧ renamed "datashare:///r/x/" "ü" = "datashare:///r/ü/" ∧
      renamed "datashare:///r/ü/x" "y" = "datashare:///r/ü/y" := by
  have hparts : split? "datashare:///r/ü/" = some ⟨"datashare", "", "/r/ü/"⟩ := by decide +kernel
  have h : IsProvided "datashare:///r/ü/" := ⟨by decide +kernel, _, hparts, rfl⟩
  have hn : IsSegment "x".toList := by decide +kernel
  have hchild : child "datashare:///r/ü/" "x" = "datashare:///r/ü/x" := by decide +kernel
  have hother : child "datashare:///r/ü/" "y" = "datashare:///r/ü/y" := by decide +kernel
  have hrenamed : renamed "datashare:///r/ü/" "x" = "datashare:///r/x/" := by decide +kernel
  have hname : lastSegment "datashare:///r/ü/" = "ü" := by decide +kernel
  have hlaws := last_segment_laws h hn "y"
  rw [hchild, hrenamed, hname, hother] at hlaws
  obtain ⟨⟨hc, hr⟩, ⟨-, hlast⟩, -, hback, hmoved⟩ := hlaws
  exact ⟨hchild, hrenamed, hc, hr, hlast, hback, hmoved⟩

/-! ## Where a child leads -/

section

variable (hbundle : '/' ∉ bundle.toList)

include hbundle

/-- The path of an address is made of its segments but for the first one that names the bundle. -/
theorem toList_pathOf_address (hne : segments ≠ []) (h : ∀ s ∈ segments, IsSegment s) (slash : Bool) :
    (pathOf bundle (address segments slash)).toList = Text.slashed (segments.erase bundle.toList) := by
  have hall : ∀ s ∈ segments, s ≠ [] ∧ '/' ∉ s := fun s hs => ⟨(h s hs).ne_nil, (h s hs).no_slash⟩
  have hrest : Text.slashed segments ++ ending slash = Text.slashed segments ∨
      Text.slashed segments ++ ending slash = Text.slashed segments ++ ['/'] := exists_ending_iff.mp ⟨slash, rfl⟩
  have hsplits : Splits (address segments slash) providerScheme.toList (Text.slashed segments ++ ending slash) :=
    splits_iff.mpr ⟨toList_address segments slash, by decide⟩
  rw [toList_pathOf hsplits, behindHost_slashed hne hrest]
  by_cases hempty : bundle = ""
  · have hnot : bundle.toList ∉ segments := fun hmem => (h _ hmem).ne_nil (String.toList_eq_nil_iff.mpr hempty)
    rw [List.erase_of_not_mem hnot, withoutSegment, if_pos (by simpa using hempty)]
    rcases hrest with heq | heq
    · rw [heq, Text.chopSlash_slashed hall]
    · rw [heq, Text.chopSlash_append_slash]
  · exact chopSlash_withoutSegment hempty hbundle hall hrest

variable (h : IsProvided raw) (hn : IsSegment n.toList) (hother : n ≠ bundle)

include h hn hother

/-- The path of a child goes on from that of an address, if its name is not the bundle. -/
theorem toList_pathOf_child :
    (pathOf bundle (child raw n)).toList = (pathOf bundle raw).toList ++ '/' :: n.toList := by
  obtain ⟨before, last, slash, hall, rfl⟩ := h.exists_address
  have hlast : IsSegment last := hall last (List.mem_append_right _ (List.mem_singleton_self last))
  have herase : (before ++ [last] ++ [n.toList]).erase bundle.toList
      = (before ++ [last]).erase bundle.toList ++ [n.toList] := by
    by_cases hmem : bundle.toList ∈ before ++ [last]
    · exact List.erase_append_left _ hmem
    · have hname : bundle.toList ∉ [n.toList] := fun hin =>
        hother (String.toList_inj.mp (List.mem_singleton.mp hin)).symm
      rw [List.erase_append_right _ hmem, List.erase_of_not_mem hname, List.erase_of_not_mem hmem]
  rw [child_address hlast, toList_pathOf_address hbundle (List.concat_ne_nil _ _) hall,
    toList_pathOf_address hbundle (List.concat_ne_nil _ _)
      (List.forall_mem_append.mpr ⟨hall, List.forall_mem_singleton.mpr hn⟩), herase, Text.slashed_concat]

/-- The child of an address leads to the child of that name. -/
theorem location_child_provided (hname : IsName n) :
    (Path.mk (pathOf bundle (child raw n))).location = (Path.mk (pathOf bundle raw)).location ++ [n] := by
  have hsteps : Path.textSteps (pathOf bundle (child raw n)).toList
      = Path.textSteps (pathOf bundle raw).toList ++ [.name n] := by
    rw [toList_pathOf_child hbundle h hn hother, Path.textSteps_append_slash, Path.textSteps_name hname]
  refine (Path.location_of_steps (p := ⟨pathOf bundle raw⟩) hsteps).trans ?_
  simp [Path.confinedStep]

/-- The last segment of the path of a child is its name. -/
theorem lastSegment_pathOf_child_provided : lastSegment (pathOf bundle (child raw n)) = n := by
  rw [lastSegment, toList_pathOf_child hbundle h hn hother, List.append_cons, Text.chopSlash_append hn.ne_nil,
    Text.chopSlash_of_not_mem hn.no_slash, ← List.append_cons, Text.afterLastSlash_append hn.no_slash,
    String.ofList_toList]

end

end FileProvider.Uri
