import FileProvider.Proofs.Text.Segments
import FileProvider.Proofs.Uri.Language

/-!
# The path that a URI addresses

A text without a separator is a path as it stands. Of any other text the path is what follows the authority,
less the first whole segment that names the bundle and less one slash at its end. For the provider's own
addresses this comes to leaving one segment out of a list of segments.
-/

set_option autoImplicit false

namespace FileProvider.Uri

variable {bundle raw : String} {before rest path : List Char} {segments : List (List Char)}

/-! ## Where the path begins -/

/-- What follows a separator without the host before its first slash; a text without a slash is no host. -/
def behindHost (rest : List Char) : List Char :=
  if rest.head? = some '/' ∨ '/' ∉ rest then rest else rest.dropWhile (· ≠ '/')

theorem splitAuthority_snd (rest : List Char) : (splitAuthority rest).2 = behindHost rest := by
  rcases Text.cases_slash rest with h | ⟨host, path, rfl, h⟩
  · rw [splitAuthority_of_not_mem h, behindHost, if_pos (.inr h)]
  · rw [splitAuthority_append h, behindHost]
    split
    · next hpath =>
      -- The slash that the text begins with is its first one.
      have hhead := hpath.resolve_right (not_not_intro (List.mem_append_right _ List.mem_cons_self))
      cases host with
      | nil => rfl
      | cons c host =>
        cases hhead
        exact absurd List.mem_cons_self h
    · exact (Text.dropWhile_ne_slash h).symm

/-- A slash at the end of a text is dropped, and nothing else. -/
def Chopped (s t : List Char) : Prop := s = t ++ ['/'] ∨ s.getLast? ≠ some '/' ∧ t = s

theorem chopped_chopSlash (s : List Char) : Chopped s (Text.chopSlash s) := by
  rcases Text.chopSlash_cases s with h | h
  · exact .inr h
  · exact .inl h

/-- A text without a separator is the path itself. -/
theorem pathOf_of_not_split (h : ∀ before after, raw.toList ≠ before ++ (separator.toList ++ after)) :
    pathOf bundle raw = raw := by
  have hbreak : Text.breakOn? separator.toList raw.toList = none := by
    rw [Option.eq_none_iff_forall_ne_some]
    exact fun ⟨before, after⟩ hsome => h before after (Text.eq_of_breakOn? hsome)
  rw [pathOf, split?, hbreak]
  rfl

/-- The path of a text that is split at a separator. -/
theorem toList_pathOf (h : Splits raw before rest) (bundle : String) :
    (pathOf bundle raw).toList = Text.chopSlash (withoutSegment bundle (behindHost rest)) := by
  rw [pathOf, split?_of_breakOn? (Text.breakOn?_eq_some_iff.mpr h)]
  dsimp only
  rw [String.toList_ofList, String.toList_ofList, splitAuthority_snd]

/-- Leaving out the bundle removes the first whole segment that names it. -/
theorem withoutSegment_lessFirst (h : bundle ≠ "") (path : List Char) :
    Text.LessFirst bundle.toList path (withoutSegment bundle path) := by
  rw [withoutSegment, if_neg (by simpa using h)]
  exact Text.dropSegment_lessFirst bundle.toList path

/-! ## Addresses of the provider -/

/-- A segment path is made of segments, with one slash more at its end or not. -/
theorem exists_segments {path : String} (h : isSegmentPath path = true) :
    ∃ segments, segments ≠ [] ∧ (∀ s ∈ segments, s ≠ [] ∧ '/' ∉ s) ∧
      (path.toList = Text.slashed segments ∨ path.toList = Text.slashed segments ++ ['/']) := by
  unfold isSegmentPath at h
  cases hpath : path.toList with
  | nil =>
    rw [hpath] at h
    cases h
  | cons c rest =>
    rw [hpath] at h
    simp only [Bool.and_eq_true, decide_eq_true_eq, List.all_eq_true, Bool.not_eq_true',
      List.isEmpty_eq_false_iff] at h
    obtain ⟨⟨rfl, -⟩, hpieces⟩ := h
    refine ⟨Text.pieces '/' (Text.chopSlash rest), Text.pieces_ne_nil _ _,
      fun s hs => ⟨hpieces s hs, Text.not_mem_of_mem_pieces hs⟩, ?_⟩
    rw [Text.slashed_pieces]
    rcases Text.chopSlash_cases rest with ⟨-, hsame⟩ | hslash
    · exact .inl (by rw [hsame])
    · exact .inr (by rw [List.cons_append, ← hslash])

/-- Segments that are not empty make a segment path. -/
theorem isSegmentPath_slashed (hne : segments ≠ []) (h : ∀ s ∈ segments, s ≠ [] ∧ '/' ∉ s) :
    isSegmentPath (String.ofList (Text.slashed segments)) = true := by
  obtain ⟨s, segments, rfl⟩ := List.exists_cons_of_ne_nil hne
  have hpieces := Text.pieces_slashed fun p hp => (h p hp).2
  have hchop := Text.chopSlash_slashed h
  obtain ⟨hs, -⟩ := h s List.mem_cons_self
  have hrest : s ++ Text.slashed segments ≠ [] := by simp [hs]
  rw [Text.slashed_cons, List.cons_append, Text.pieces, if_pos rfl, List.cons.injEq] at hpieces
  rw [Text.slashed_cons, List.cons_append, ← List.singleton_append, Text.chopSlash_append hrest] at hchop
  rw [isSegmentPath, String.toList_ofList, Text.slashed_cons, List.cons_append]
  dsimp only
  rw [List.append_cancel_left hchop, hpieces.2]
  simp only [decide_true, Bool.true_and, Bool.and_eq_true, Bool.not_eq_true', List.isEmpty_eq_false_iff,
    List.all_eq_true]
  exact ⟨hrest, fun p hp => (h p hp).1⟩

/-- Of segments, with a slash at their end or not, the first one that names the bundle is left out. -/
theorem chopSlash_withoutSegment (hne : bundle ≠ "") (hbundle : '/' ∉ bundle.toList)
    (h : ∀ s ∈ segments, s ≠ [] ∧ '/' ∉ s)
    (hpath : path = Text.slashed segments ∨ path = Text.slashed segments ++ ['/']) :
    Text.chopSlash (withoutSegment bundle path) = Text.slashed (segments.erase bundle.toList) := by
  have hname : bundle.toList ≠ [] := fun heq => hne (String.toList_eq_nil_iff.mp heq)
  have hkept : ∀ s ∈ segments.erase bundle.toList, s ≠ [] ∧ '/' ∉ s := fun s hs => h s (List.mem_of_mem_erase hs)
  have hdrop : ∀ t, t = [] ∨ t = ['/'] → Text.dropSegment ('/' :: bundle.toList) (Text.slashed segments ++ t)
      = Text.slashed (segments.erase bundle.toList) ++ t :=
    fun t => Text.dropSegment_slashed hname hbundle fun s hs => (h s hs).2
  rw [withoutSegment, if_neg (by simpa using hne)]
  rcases hpath with rfl | rfl
  · have hnone := hdrop [] (.inl rfl)
    rw [List.append_nil, List.append_nil] at hnone
    rw [hnone, Text.chopSlash_slashed hkept]
  · rw [hdrop ['/'] (.inr rfl), Text.chopSlash_append_slash]

/-- An address of the provider's own scheme is that scheme, a separator and segments. -/
theorem exists_segments_of_isAddress {u : Uri} (h : isAddress raw = true) (hu : split? raw = some u)
    (hscheme : u.scheme = providerScheme) :
    ∃ segments rest, segments ≠ [] ∧ (∀ s ∈ segments, s ≠ [] ∧ '/' ∉ s) ∧ Splits raw providerScheme.toList rest ∧
      (rest = Text.slashed segments ∨ rest = Text.slashed segments ++ ['/']) := by
  obtain ⟨-, v, hv, hcases⟩ := isAddress_iff.mp h
  cases hu.symm.trans hv
  have hsegments : isSegmentPath u.remainder = true :=
    hcases.elim (fun hfile => absurd (hfile.symm.trans hscheme) (by decide)) And.right
  obtain ⟨before, rest, hsplits, hprovider, hrest⟩ :=
    (exists_split?_iff raw fun scheme rest => scheme = providerScheme ∧ u.remainder.toList = rest).mp
      ⟨u, hu, hscheme, rfl⟩
  obtain ⟨segments, hne, hall, hpath⟩ := exists_segments hsegments
  have hbefore : before = providerScheme.toList := by rw [← hprovider, String.toList_ofList]
  exact ⟨segments, rest, hne, hall, hbefore ▸ hsplits, hrest ▸ hpath⟩

/-- A path that is made of segments begins behind the separator. -/
theorem behindHost_slashed (hne : segments ≠ [])
    (hrest : rest = Text.slashed segments ∨ rest = Text.slashed segments ++ ['/']) : behindHost rest = rest := by
  obtain ⟨s, segments, rfl⟩ := List.exists_cons_of_ne_nil hne
  have hhead : rest.head? = some '/' := by rcases hrest with rfl | rfl <;> rfl
  exact if_pos (.inl hhead)

/-- The path that a text addresses for a bundle that is one segment: a text without a separator is the path
itself; of any other one it is what follows the host behind the first separator, less the first whole segment
that names the bundle and less a slash at its end. For an address of the provider's scheme these are its segments
but for the first one that names the bundle, so that nothing is left or a segment path without a slash at its
end. -/
theorem pathOf_addressed (hne : bundle ≠ "") (hbundle : '/' ∉ bundle.toList) (raw : String) :
    ((∀ before after, raw.toList ≠ before ++ (separator.toList ++ after)) → pathOf bundle raw = raw) ∧
    (∀ before rest, Splits raw before rest →
      ∃ path, Text.LessFirst bundle.toList (behindHost rest) path ∧ Chopped path (pathOf bundle raw).toList) ∧
    (∀ u, isAddress raw = true → split? raw = some u → u.scheme = providerScheme →
      ∃ segments rest, segments ≠ [] ∧ (∀ s ∈ segments, s ≠ [] ∧ '/' ∉ s) ∧
        Splits raw providerScheme.toList rest ∧
        (rest = Text.slashed segments ∨ rest = Text.slashed segments ++ ['/']) ∧
        (pathOf bundle raw).toList = Text.slashed (segments.erase bundle.toList) ∧
        (pathOf bundle raw = "" ∨
          isSegmentPath (pathOf bundle raw) = true ∧ (pathOf bundle raw).toList.getLast? ≠ some '/')) := by
  refine ⟨pathOf_of_not_split, fun before rest hsplits => ?_, fun u haddress hu hscheme => ?_⟩
  · rw [toList_pathOf hsplits]
    exact ⟨_, withoutSegment_lessFirst hne _, chopped_chopSlash _⟩
  · obtain ⟨segments, rest, hsome, hall, hsplits, hrest⟩ := exists_segments_of_isAddress haddress hu hscheme
    have hpath : (pathOf bundle raw).toList = Text.slashed (segments.erase bundle.toList) := by
      rw [toList_pathOf hsplits, behindHost_slashed hsome hrest, chopSlash_withoutSegment hne hbundle hall hrest]
    refine ⟨segments, rest, hsome, hall, hsplits, hrest, hpath, ?_⟩
    have hkept : ∀ s ∈ segments.erase bundle.toList, s ≠ [] ∧ '/' ∉ s :=
      fun s hs => hall s (List.mem_of_mem_erase hs)
    have htext : pathOf bundle raw = String.ofList (Text.slashed (segments.erase bundle.toList)) := by
      rw [← hpath, String.ofList_toList]
    by_cases hleft : segments.erase bundle.toList = []
    · exact .inl (by rw [htext, hleft]; rfl)
    · exact .inr ⟨htext ▸ isSegmentPath_slashed hleft hkept, hpath ▸ Text.getLast?_slashed hkept⟩

/-- A longer segment is not the bundle, and of two that are only the first one is left out. -/
theorem pathOf_addressed_twice :
    pathOf "app" "datashare:///apple/app/ü/app/" = "/apple/ü/app" ∧
      ∃ segments rest, segments ≠ [] ∧ (∀ s ∈ segments, s ≠ [] ∧ '/' ∉ s) ∧
        Splits "datashare:///apple/app/ü/app/" providerScheme.toList rest ∧
        (rest = Text.slashed segments ∨ rest = Text.slashed segments ++ ['/']) ∧
        "/apple/ü/app".toList = Text.slashed (segments.erase "app".toList) := by
  have hpath : pathOf "app" "datashare:///apple/app/ü/app/" = "/apple/ü/app" := by decide +kernel
  have hne : "app" ≠ "" := by decide
  have hbundle : '/' ∉ "app".toList := by decide
  obtain ⟨segments, rest, hsome, hall, hsplits, hrest, hleft, -⟩ :=
    (pathOf_addressed hne hbundle "datashare:///apple/app/ü/app/").2.2
      ⟨"datashare", "", "/apple/app/ü/app/"⟩ (by decide +kernel) (by decide +kernel) rfl
  exact ⟨hpath, segments, rest, hsome, hall, hsplits, hrest, hpath ▸ hleft⟩

end FileProvider.Uri
