import FileProvider.Proofs.Text.Search
import FileProvider.Uri.Addressing

/-!
# The URI of a child

The URI of a child goes on from that of its parent with a slash and a name. Read again it has the scheme of
its parent, and its path goes on from the parent's path, unless the parent has none and is a host by itself.
It addresses an entry as its parent does.
-/

set_option autoImplicit false

namespace FileProvider

namespace Uri

variable {parent name : String} {u : Uri}

/-! ## Reading the URI of a child -/

/-- The characters of the URI of a child: a slash at the end of the parent's is not doubled. -/
theorem toList_child (parent name : String) :
    (child parent name).toList = Text.chopSlash parent.toList ++ '/' :: name.toList := by
  unfold child
  split
  · next h =>
    obtain ⟨front, hfront⟩ := List.getLast?_eq_some_iff.mp h
    rw [String.toList_append, hfront, Text.chopSlash_append_slash, List.append_assoc]
    rfl
  · next h =>
    rw [String.toList_append, String.toList_append, Text.chopSlash, if_neg h, List.append_assoc]
    rfl

/-- The URI of a child goes on from that of its parent. -/
theorem exists_toList_child (parent name : String) :
    ∃ more, (child parent name).toList = parent.toList ++ more := by
  unfold child
  split
  · exact ⟨name.toList, String.toList_append⟩
  · exact ⟨'/' :: name.toList, by rw [String.toList_append, String.toList_append, List.append_assoc]; rfl⟩

theorem splitAuthority_of_not_mem {rest : List Char} (h : '/' ∉ rest) :
    splitAuthority rest = ([], rest) := by
  have hdrop : rest.dropWhile (· ≠ '/') = [] :=
    List.dropWhile_eq_nil_iff.mpr fun x hx => decide_eq_true fun heq => h (heq ▸ hx)
  rw [splitAuthority, hdrop]
  rfl

theorem splitAuthority_append {host : List Char} (h : '/' ∉ host) (path : List Char) :
    splitAuthority (host ++ '/' :: path) = (host, '/' :: path) := by
  rw [splitAuthority, Text.takeWhile_ne_slash h, Text.dropWhile_ne_slash h]
  exact if_neg (List.cons_ne_nil _ _)

/-- A text with a separator is split there. -/
theorem split?_of_breakOn? {raw : String} {scheme rest : List Char}
    (h : Text.breakOn? separator.toList raw.toList = some (scheme, rest)) :
    split? raw = some ⟨String.ofList scheme, String.ofList (splitAuthority rest).1,
      String.ofList (splitAuthority rest).2⟩ := by
  rw [split?, h]
  rfl

/-- What stands behind the separator goes on with a slash and the name, unless nothing stands there. -/
theorem breakOn?_child {scheme rest : List Char}
    (h : Text.breakOn? separator.toList parent.toList = some (scheme, rest)) (name : String) :
    Text.breakOn? separator.toList (child parent name).toList
      = some (scheme, if rest = [] then name.toList else Text.chopSlash rest ++ '/' :: name.toList) := by
  obtain ⟨more, hmore⟩ := exists_toList_child parent name
  have hchild : Text.breakOn? separator.toList (child parent name).toList = some (scheme, rest ++ more) := by
    rw [hmore, Text.breakOn?_append h]
  have htext := toList_child parent name
  rw [Text.eq_of_breakOn? hchild, Text.eq_of_breakOn? h] at htext
  rw [hchild]
  refine congrArg (fun tail => some (scheme, tail)) ?_
  split
  · next hrest =>
    have hseparator : separator.toList = [':', '/'] ++ ['/'] := by decide
    rw [hrest, List.append_nil, hseparator, ← List.append_assoc scheme [':', '/'],
      Text.chopSlash_append_slash] at htext
    simpa [hrest] using htext
  · next hrest =>
    rw [← List.append_assoc scheme, ← List.append_assoc scheme, Text.chopSlash_append hrest,
      List.append_assoc _ _ ('/' :: name.toList)] at htext
    exact List.append_cancel_left htext

/-- The URI of a child has the scheme of its parent, and its path goes on from the parent's; the name becomes
the path if the parent is a scheme by itself, and begins one if the parent is a host by itself. -/
theorem split?_child (h : split? parent = some u) (hname : '/' ∉ name.toList) :
    ∃ v, split? (child parent name) = some v ∧ v.scheme = u.scheme ∧
      ((u.path.toList.head? = some '/' ∧ v.authority = u.authority ∧
          v.path.toList = Text.chopSlash u.path.toList ++ '/' :: name.toList) ∨
        (u.path.toList = [] ∧ v.path.toList = name.toList) ∨
        (u.path.toList ≠ [] ∧ '/' ∉ u.path.toList ∧ v.path.toList = '/' :: name.toList)) := by
  obtain ⟨⟨scheme, rest⟩, hbreak, hu⟩ := Option.map_eq_some_iff.mp h
  cases hu
  have hchild := breakOn?_child hbreak name
  refine ⟨_, split?_of_breakOn? hchild, rfl, ?_⟩
  simp only [String.toList_ofList]
  by_cases hslash : '/' ∈ rest
  · obtain ⟨host, path, rfl, hhost⟩ := List.eq_append_cons_of_mem hslash
    have hne : host ++ '/' :: path ≠ [] := by simp
    -- The path of the child begins with a slash too.
    obtain ⟨tail, htail⟩ : ∃ tail, Text.chopSlash ('/' :: path) ++ '/' :: name.toList = '/' :: tail := by
      cases path with
      | nil => exact ⟨name.toList, rfl⟩
      | cons c path =>
        have hchop := Text.chopSlash_append (List.cons_ne_nil c path) ['/']
        refine ⟨Text.chopSlash (c :: path) ++ '/' :: name.toList, ?_⟩
        change Text.chopSlash (['/'] ++ c :: path) ++ _ = _
        rw [hchop]
        rfl
    rw [if_neg hne, Text.chopSlash_append (List.cons_ne_nil _ _), List.append_assoc, htail,
      splitAuthority_append hhost, splitAuthority_append hhost, htail]
    exact .inl ⟨rfl, rfl, rfl⟩
  · rw [splitAuthority_of_not_mem hslash]
    by_cases hrest : rest = []
    · rw [if_pos hrest, splitAuthority_of_not_mem hname]
      exact .inr (.inl ⟨hrest, rfl⟩)
    · rw [if_neg hrest, Text.chopSlash_of_not_mem hslash, splitAuthority_append hslash]
      exact .inr (.inr ⟨hrest, hslash, rfl⟩)

/-! ## Addresses -/

/-- What follows the separator is what is left of a URI without its scheme. -/
theorem remainder_of_breakOn? {raw : String} {scheme rest : List Char}
    (h : Text.breakOn? separator.toList raw.toList = some (scheme, rest)) :
    ∃ u, split? raw = some u ∧ u.scheme = String.ofList scheme ∧ u.remainder.toList = rest := by
  refine ⟨_, split?_of_breakOn? h, rfl, ?_⟩
  rw [remainder, String.toList_append, String.toList_ofList, String.toList_ofList]
  unfold splitAuthority
  dsimp only
  split
  · rfl
  · exact List.takeWhile_append_dropWhile

/-- The path of a child is a segment path if that of its parent is one: its name, if it has any, is one
segment more. -/
theorem isSegmentPath_child {rest : List Char} (h : isSegmentPath (String.ofList rest) = true)
    (hname : '/' ∉ name.toList) :
    isSegmentPath (String.ofList (Text.chopSlash rest ++ '/' :: name.toList)) = true := by
  unfold isSegmentPath at h ⊢
  rw [String.toList_ofList] at h ⊢
  cases rest with
  | nil => cases h
  | cons c tail =>
    simp only [Bool.and_eq_true, decide_eq_true_eq, Bool.not_eq_true', List.isEmpty_eq_false_iff] at h
    obtain ⟨⟨rfl, hbody⟩, hpieces⟩ := h
    have htail : tail ≠ [] := by
      rintro rfl
      exact hbody rfl
    have hchop : Text.chopSlash ('/' :: tail) = '/' :: Text.chopSlash tail :=
      Text.chopSlash_append htail ['/']
    rw [hchop, List.cons_append]
    dsimp only
    rw [Text.chopSlash_append (List.cons_ne_nil _ _)]
    by_cases hempty : name.toList = []
    · have hslash : Text.chopSlash ['/'] = [] := rfl
      rw [hempty, hslash, List.append_nil, hpieces]
      simpa using hbody
    · have hlast : Text.chopSlash ('/' :: name.toList) = '/' :: name.toList := by
        rw [← List.singleton_append, Text.chopSlash_append hempty, Text.chopSlash_of_not_mem hname]
      rw [hlast, Text.pieces_append_sep, Text.pieces_of_not_mem hname, List.all_append, hpieces]
      simp [hempty]

/-- A URI that addresses entries holds no illegal character, and its scheme is one of two. -/
theorem isAddress_iff {raw : String} :
    isAddress raw = true ↔ (∀ c ∈ raw.toList, isIllegal c = false) ∧
      ∃ u, split? raw = some u ∧
        (u.scheme = fileScheme ∨ u.scheme = providerScheme ∧ isSegmentPath u.remainder = true) := by
  have hfind : raw.toList.find? isIllegal = none ↔ ∀ c ∈ raw.toList, isIllegal c = false := by simp
  rw [← hfind, isAddress, parse]
  cases raw.toList.find? isIllegal with
  | some c => simp
  | none =>
    cases split? raw with
    | none => simp
    | some u =>
      by_cases hscheme : isScheme u.scheme.toList = true
      · simp [hscheme]
      · have hother : ∀ scheme, isScheme scheme.toList = true → u.scheme ≠ scheme :=
          fun scheme h heq => hscheme (heq ▸ h)
        simp [hscheme, hother fileScheme (by decide), hother providerScheme (by decide)]

theorem exists_split?_of_isAddress {raw : String} (h : isAddress raw = true) :
    ∃ u, split? raw = some u := by
  obtain ⟨_, u, hu, _⟩ := isAddress_iff.mp h
  exact ⟨u, hu⟩

/-- The URI of a child addresses an entry if that of its parent does and nothing in the name is illegal. -/
theorem isAddress_child (h : isAddress parent = true) (hname : '/' ∉ name.toList)
    (hlegal : ∀ c ∈ name.toList, isIllegal c = false) : isAddress (child parent name) = true := by
  obtain ⟨hparent, u, hu, hscheme⟩ := isAddress_iff.mp h
  obtain ⟨⟨scheme, rest⟩, hbreak, _⟩ := Option.map_eq_some_iff.mp hu
  obtain ⟨v, hv, hvscheme, hvrest⟩ := remainder_of_breakOn? hbreak
  obtain rfl : u = v := Option.some.inj (hu.symm.trans hv)
  obtain ⟨w, hw, hwscheme, hwrest⟩ := remainder_of_breakOn? (breakOn?_child hbreak name)
  refine isAddress_iff.mpr ⟨fun c hc => ?_, w, hw, ?_⟩
  · rw [toList_child, List.mem_append, List.mem_cons] at hc
    rcases hc with hc | rfl | hc
    · refine hparent c ?_
      rcases Text.chopSlash_cases parent.toList with ⟨_, hsame⟩ | hslash
      · rwa [hsame] at hc
      · rw [hslash]
        exact List.mem_append_left _ hc
    · decide
    · exact hlegal c hc
  · rw [hwscheme, ← hvscheme]
    refine hscheme.imp id fun ⟨hprovider, hpath⟩ => ⟨hprovider, ?_⟩
    rw [← String.ofList_toList (s := u.remainder), hvrest] at hpath
    have hrest : rest ≠ [] := by
      rintro rfl
      cases hpath
    rw [← String.ofList_toList (s := w.remainder), hwrest, if_neg hrest]
    exact isSegmentPath_child hpath hname

/-! ## The name of an entry -/

theorem no_slash_lastSegment (raw : String) : '/' ∉ (lastSegment raw).toList := by
  rw [lastSegment, String.toList_ofList]
  exact Text.not_mem_afterLastSlash _

/-- The last segment of an address can be part of another one. -/
theorem legal_lastSegment {raw : String} (h : isAddress raw = true) :
    ∀ c ∈ (lastSegment raw).toList, isIllegal c = false := by
  intro c hc
  refine (isAddress_iff.mp h).1 c ?_
  rw [lastSegment, String.toList_ofList, Text.afterLastSlash, List.mem_reverse] at hc
  have hchop := List.mem_reverse.mp ((List.takeWhile_sublist _).subset hc)
  rcases Text.chopSlash_cases raw.toList with ⟨_, hsame⟩ | hslash
  · rwa [hsame] at hchop
  · rw [hslash]
    exact List.mem_append_left _ hchop

end Uri

end FileProvider
