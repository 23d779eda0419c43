import FileProvider.Proofs.Path.Location
import FileProvider.Proofs.Uri.Child

/-!
# Where the URI of a child leads

The path of a child goes on from that of its parent, and leaving out the bundle does not change that, but for
a name that completes the bundle's segment. The URI of a child therefore leads to the child of that name; if
it does not, it leads to a place that is there whenever the parent is.
-/

set_option autoImplicit false

namespace FileProvider

namespace Path

/-- A slash at the end means nothing. -/
theorem textSteps_chopSlash (s : List Char) : textSteps (Text.chopSlash s) = textSteps s := by
  rcases Text.chopSlash_cases s with ⟨_, h⟩ | h
  · rw [h]
  · rw [h, Text.chopSlash_append_slash, textSteps_append_slash, textSteps_nil, List.append_nil]

/-- A text without a slash means one step at most. -/
theorem textSteps_of_not_mem {n : String} (h : '/' ∉ n.toList) :
    textSteps n.toList = [] ∨ textSteps n.toList = [.up] ∨ IsName n ∧ textSteps n.toList = [.name n] := by
  rw [textSteps_eq, Text.pieces_of_not_mem h, List.filterMap_cons]
  cases hpiece : Component.ofPiece? n.toList with
  | none => exact .inl rfl
  | some c =>
    rcases eq_of_ofPiece? hpiece with rfl | ⟨m, rfl, hstep, rfl⟩
    · exact .inr (.inl rfl)
    · rw [String.ofList_toList] at hstep ⊢
      exact .inr (.inr ⟨hstep.isName (Name.isText_iff.mpr h), rfl⟩)

/-- A path whose steps go on from those of another one names the place to which the rest leads from there. -/
theorem location_of_steps {p p' : Path} {rest : List Component}
    (h : steps p'.signs = steps p.signs ++ rest) :
    p'.location = (rest.foldl confinedStep p.location.reverse).reverse := by
  rw [location_eq p', h, List.foldl_append, location_eq p, List.reverse_reverse]

/-- A text without a slash leads nowhere, to the parent, or to a child. -/
theorem foldl_confinedStep_of_not_mem {n : String} (h : '/' ∉ n.toList) (l : Location) :
    ((textSteps n.toList).foldl confinedStep l.reverse).reverse = l ∨
      ((textSteps n.toList).foldl confinedStep l.reverse).reverse = l.dropLast ∨
      IsName n ∧ ((textSteps n.toList).foldl confinedStep l.reverse).reverse = l ++ [n] := by
  rcases textSteps_of_not_mem h with hsteps | hsteps | ⟨hn, hsteps⟩ <;> rw [hsteps]
  · exact .inl (List.reverse_reverse l)
  · refine .inr (.inl ?_)
    simp [confinedStep]
  · refine .inr (.inr ⟨hn, ?_⟩)
    simp [confinedStep]

end Path

namespace Uri

variable {parent name bundle : String} {u : Uri}

/-! ## Leaving out the bundle -/

/-- The steps of the path of a URI; a slash at its end means nothing. -/
theorem steps_pathOf {raw : String} (h : split? raw = some u) (bundle : String) :
    Path.textSteps (pathOf bundle raw).toList = Path.textSteps (withoutSegment bundle u.path.toList) := by
  rw [pathOf, h]
  dsimp only
  rw [String.toList_ofList, Path.textSteps_chopSlash]

/-- A slash and a name stay when the bundle's segment is left out, if it is found before them or they do not
complete it. -/
theorem withoutSegment_append {path : List Char} (hname : '/' ∉ name.toList)
    (h : bundle = "" ∨ withoutSegment bundle path ≠ path ∨
      ¬ '/' :: bundle.toList <:+ path ++ '/' :: name.toList) :
    withoutSegment bundle (path ++ '/' :: name.toList)
      = withoutSegment bundle path ++ '/' :: name.toList := by
  unfold withoutSegment at h ⊢
  split
  · rfl
  · next hbundle =>
    rw [if_neg hbundle] at h
    exact Text.dropSegment_append hname (h.resolve_left fun heq => hbundle (heq ▸ rfl)) rfl

/-- For a bundle that is one segment, a slash and a name stay or are what is left out. -/
theorem withoutSegment_child (path : List Char) (hbundle : '/' ∉ bundle.toList)
    (hname : '/' ∉ name.toList) :
    withoutSegment bundle (path ++ '/' :: name.toList) = withoutSegment bundle path ++ '/' :: name.toList ∨
      withoutSegment bundle (path ++ '/' :: name.toList) = withoutSegment bundle path := by
  unfold withoutSegment
  split
  · exact .inl rfl
  · exact Text.dropSegment_child hbundle hname

/-- Whether a slash and a name behind a path are spared when the bundle is left out: its segment stands in the
path, or neither a slash at the end of the path nor the name completes it. -/
def Spares (bundle : String) (path : List Char) (name : String) : Prop :=
  bundle = "" ∨ withoutSegment bundle (Text.chopSlash path) ≠ Text.chopSlash path ∨
    ¬ '/' :: bundle.toList <:+ path ∧
      ¬ '/' :: bundle.toList <:+ Text.chopSlash path ++ '/' :: name.toList

instance (bundle : String) (path : List Char) (name : String) : Decidable (Spares bundle path name) :=
  inferInstanceAs (Decidable (_ ∨ _ ∨ _ ∧ _))

/-- A slash at the end of a path does not complete a bundle that is one segment. -/
theorem spares_slash {path : List Char} (hbundle : '/' ∉ bundle.toList)
    (hslash : path = Text.chopSlash path ++ ['/']) : Spares bundle path "" := by
  by_cases hempty : bundle = ""
  · exact .inl hempty
  · have hnot : ¬ '/' :: bundle.toList <:+ Text.chopSlash path ++ ['/'] := by
      rintro ⟨front, heq⟩
      have hlast := congrArg Text.afterLastSlash heq
      rw [Text.afterLastSlash_append hbundle, Text.afterLastSlash_append List.not_mem_nil] at hlast
      exact hempty (String.toList_eq_nil_iff.mp hlast)
    refine .inr (.inr ⟨?_, hnot⟩)
    rwa [hslash]

/-- Where a name is spared, a slash at the end of the path is. -/
theorem Spares.at_end {path : List Char} (h : Spares bundle path name)
    (hslash : path = Text.chopSlash path ++ ['/']) : Spares bundle path "" := by
  refine h.imp id (Or.imp id fun ⟨hnot, _⟩ => ⟨hnot, ?_⟩)
  rw [String.toList_empty, ← hslash]
  exact hnot

/-- A slash at the end of a path does not matter when the bundle is left out. -/
theorem steps_withoutSegment_chopSlash {path : List Char}
    (h : path = Text.chopSlash path ++ ['/'] → Spares bundle path "") :
    Path.textSteps (withoutSegment bundle (Text.chopSlash path)) = Path.textSteps (withoutSegment bundle path) := by
  rcases Text.chopSlash_cases path with ⟨_, hsame⟩ | hslash
  · rw [hsame]
  · have happend : withoutSegment bundle (Text.chopSlash path ++ '/' :: "".toList) = _ :=
      withoutSegment_append (by decide) ((h hslash).imp id (Or.imp id And.right))
    rw [String.toList_empty, ← hslash] at happend
    rw [happend, Path.textSteps_append_slash, Path.textSteps_nil, List.append_nil]

/-- Nothing is left out of a name. -/
theorem withoutSegment_of_not_mem (bundle : String) {n : List Char} (hn : '/' ∉ n) :
    withoutSegment bundle n = n := by
  unfold withoutSegment
  split
  · rfl
  · exact Text.dropSegment_of_not_mem hn

/-! ## Where the URI of a child leads -/

section

variable (h : split? parent = some u) (hname : '/' ∉ name.toList)

include h hname

/-- The steps of the URI of a child, for a bundle that is one segment: those of its parent or none, and
that of the name or none. -/
theorem steps_pathOf_child (hbundle : '/' ∉ bundle.toList) :
    ∃ before ∈ [[], Path.textSteps (pathOf bundle parent).toList],
      Path.textSteps (pathOf bundle (child parent name)).toList = before ++ Path.textSteps name.toList ∨
        Path.textSteps (pathOf bundle (child parent name)).toList = before := by
  obtain ⟨v, hv, _, hpath⟩ := split?_child h hname
  rw [steps_pathOf hv, steps_pathOf h]
  rcases hpath with ⟨_, _, hpath⟩ | ⟨_, hpath⟩ | ⟨_, _, hpath⟩
  · refine ⟨_, List.mem_cons_of_mem _ List.mem_cons_self, ?_⟩
    have hbase : Path.textSteps (withoutSegment bundle (Text.chopSlash u.path.toList)) = _ :=
      steps_withoutSegment_chopSlash (spares_slash hbundle)
    rw [hpath, ← hbase]
    rcases withoutSegment_child (Text.chopSlash u.path.toList) hbundle hname with heq | heq
    · exact .inl (by rw [heq, Path.textSteps_append_slash])
    · exact .inr (by rw [heq])
  · exact ⟨[], List.mem_cons_self, .inl (by rw [hpath, withoutSegment_of_not_mem bundle hname]; rfl)⟩
  · refine ⟨[], List.mem_cons_self, ?_⟩
    have hnil : withoutSegment bundle [] = [] := withoutSegment_of_not_mem bundle List.not_mem_nil
    rw [hpath]
    rcases withoutSegment_child [] hbundle hname with heq | heq
    · exact .inl (by rw [← List.nil_append ('/' :: _), heq, hnil, Path.textSteps_append_slash, Path.textSteps_nil])
    · exact .inr (by rw [← List.nil_append ('/' :: _), heq, hnil, Path.textSteps_nil])

/-- Where the URI of a child leads, for a bundle that is one segment: to the parent or to the root, from there
to the parent in turn, or from there to the child of that name. -/
theorem location_child_cases (hbundle : '/' ∉ bundle.toList) :
    ∃ base : Location, (base = [] ∨ base = (Path.mk (pathOf bundle parent)).location) ∧
      ((Path.mk (pathOf bundle (child parent name))).location = base ∨
        (Path.mk (pathOf bundle (child parent name))).location = base.dropLast ∨
        IsName name ∧ (Path.mk (pathOf bundle (child parent name))).location = base ++ [name]) := by
  obtain ⟨before, hbefore, hsteps⟩ := steps_pathOf_child h hname hbundle
  obtain ⟨p, hp, hbase⟩ : ∃ p : Path, before = Path.steps p.signs ∧
      (p.location = [] ∨ p.location = (Path.mk (pathOf bundle parent)).location) := by
    rcases List.mem_cons.mp hbefore with rfl | hbefore
    · exact ⟨⟨""⟩, rfl, .inl (by rw [Path.location_eq]; rfl)⟩
    · exact ⟨_, List.mem_singleton.mp hbefore, .inr rfl⟩
  refine ⟨p.location, hbase, ?_⟩
  rcases hsteps with hsteps | hsteps
  · rw [Path.location_of_steps (p := p) (hp ▸ hsteps)]
    exact Path.foldl_confinedStep_of_not_mem hname p.location
  · refine .inl ?_
    rw [Path.location_eq, Path.location_eq p, ← hp, ← hsteps]
    rfl

end

/-- Whether the path of a child goes on from that of its parent: there is none to go on from, or there is a
path and not just a host, and the name is spared when the bundle is left out. -/
def Carries (bundle : String) (path : List Char) (name : String) : Prop :=
  path = [] ∨ path.head? = some '/' ∧ Spares bundle path name

instance (bundle : String) (path : List Char) (name : String) : Decidable (Carries bundle path name) :=
  inferInstanceAs (Decidable (_ ∨ _ ∧ _))

section

variable (h : split? parent = some u) (hname : IsName name) (hcarries : Carries bundle u.path.toList name)

include h hname hcarries

/-- What is left of the path of a child, if it goes on from that of its parent. -/
theorem withoutSegment_carries :
    ∃ v, split? (child parent name) = some v ∧
      ((u.path.toList = [] ∧ withoutSegment bundle v.path.toList = name.toList) ∨
        (Spares bundle u.path.toList name ∧ withoutSegment bundle v.path.toList
          = withoutSegment bundle (Text.chopSlash u.path.toList) ++ '/' :: name.toList)) := by
  obtain ⟨v, hv, _, hpath⟩ := split?_child h hname.no_slash
  refine ⟨v, hv, ?_⟩
  rcases hcarries with hnil | ⟨hhead, hspares⟩
  · rcases hpath with ⟨hhead, _⟩ | ⟨_, hpath⟩ | ⟨hne, _⟩
    · rw [hnil] at hhead
      cases hhead
    · exact .inl ⟨hnil, by rw [hpath, withoutSegment_of_not_mem bundle hname.no_slash]⟩
    · exact absurd hnil hne
  · rcases hpath with ⟨_, _, hpath⟩ | ⟨hnil, _⟩ | ⟨_, hno, _⟩
    · refine .inr ⟨hspares, ?_⟩
      rw [hpath]
      exact withoutSegment_append hname.no_slash (hspares.imp id (Or.imp id And.right))
    · rw [hnil] at hhead
      cases hhead
    · exact absurd (List.mem_of_mem_head? hhead) hno

/-- The URI of a child leads to the child of that name, if its path goes on from that of the parent. -/
theorem location_child :
    (Path.mk (pathOf bundle (child parent name))).location
      = (Path.mk (pathOf bundle parent)).location ++ [name] := by
  have hsteps : Path.textSteps (pathOf bundle (child parent name)).toList
      = Path.textSteps (pathOf bundle parent).toList ++ [.name name] := by
    obtain ⟨v, hv, ⟨hnil, hpath⟩ | ⟨hspares, hpath⟩⟩ := withoutSegment_carries h hname hcarries
    · rw [steps_pathOf hv, hpath, Path.textSteps_name hname, steps_pathOf h, hnil,
        withoutSegment_of_not_mem bundle List.not_mem_nil]
      rfl
    · rw [steps_pathOf hv, hpath, Path.textSteps_append_slash, Path.textSteps_name hname, steps_pathOf h,
        steps_withoutSegment_chopSlash hspares.at_end]
  refine (Path.location_of_steps (p := ⟨pathOf bundle parent⟩) hsteps).trans ?_
  simp [Path.confinedStep]

/-- The last segment of the path of a child is its name, if the path goes on from that of the parent. -/
theorem lastSegment_pathOf_child : lastSegment (pathOf bundle (child parent name)) = name := by
  have hname' := Text.chopSlash_of_not_mem hname.no_slash
  obtain ⟨v, hv, hpath⟩ := withoutSegment_carries h hname hcarries
  rw [lastSegment, pathOf, hv]
  dsimp only
  rcases hpath with ⟨_, hpath⟩ | ⟨_, hpath⟩
  · rw [hpath, String.toList_ofList, hname', hname', Text.afterLastSlash_of_not_mem hname.no_slash,
      String.ofList_toList]
  · have hlast : ∀ front, Text.chopSlash (front ++ '/' :: name.toList) = front ++ '/' :: name.toList := by
      intro front
      rw [List.append_cons, Text.chopSlash_append hname.ne_empty, hname']
    rw [hpath, String.toList_ofList, hlast, hlast, Text.afterLastSlash_append hname.no_slash,
      String.ofList_toList]

end

end Uri

end FileProvider
