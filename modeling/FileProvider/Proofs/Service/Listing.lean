import FileProvider.Proofs.Service.Opening

/-!
# What a listing shows

A document passes a filter if it meets every criterion that the filter states. A listing goes through the
entries one by one, passes over some of them without a look, and stops when its window is full. If nothing
fails this makes no difference: what it shows is the part of the filtered documents that its window cuts
out. In a store the documents of a directory are those of the names that it lists, in that order, so that a
new entry comes behind all others.
-/

set_option autoImplicit false

namespace FileProvider

/-! ## Filters -/

namespace Filter

variable {f : Filter} {d : Document}

/-- Whether a document meets every criterion that a filter states; a directory need not meet those on suffix
and size. -/
structure Meets (f : Filter) (d : Document) : Prop where
  visible : f.excludeHidden = true → ∀ rest, d.fileName ≠ "." ++ rest
  named : f.displayNames ≠ [] → d.fileName ∈ f.displayNames
  suffixed : f.suffixes ≠ [] → d.isDir = false → ∃ suffix ∈ f.suffixes, ∃ stem, d.fileName = stem ++ suffix
  large : f.minSize ≠ 0 → d.isDir = false → f.minSize ≤ d.size

theorem endsWith_iff {name suffix : String} : endsWith name suffix = true ↔ ∃ stem, name = stem ++ suffix := by
  rw [endsWith, List.isSuffixOf_iff_suffix]
  constructor
  · rintro ⟨stem, hstem⟩
    refine ⟨String.ofList stem, String.toList_inj.mp ?_⟩
    rw [String.toList_append, String.toList_ofList, hstem]
  · rintro ⟨stem, rfl⟩
    exact ⟨stem.toList, String.toList_append.symm⟩

theorem startsWithDot_iff {name : String} : name.toList.head? = some '.' ↔ ∃ rest, name = "." ++ rest := by
  rw [List.head?_eq_some_iff]
  constructor
  · rintro ⟨rest, hrest⟩
    refine ⟨String.ofList rest, String.toList_inj.mp ?_⟩
    rw [hrest, String.toList_append]
    exact congrArg (List.cons '.') String.toList_ofList.symm
  · rintro ⟨rest, rfl⟩
    exact ⟨rest.toList, by rw [String.toList_append]; rfl⟩

/-- What passes a filter is what meets its criteria. -/
theorem accepts_iff : f.accepts d = true ↔ f.Meets d := by
  have hbits : f.accepts d = true ↔
      (f.excludeHidden = true → d.fileName.toList.head? ≠ some '.') ∧
      (f.displayNames ≠ [] → d.fileName ∈ f.displayNames) ∧
      (d.isDir = false →
        (f.suffixes ≠ [] → ∃ suffix ∈ f.suffixes, endsWith d.fileName suffix = true) ∧ f.minSize ≤ d.size) := by
    rw [accepts]
    cases f.excludeHidden <;> cases d.isDir <;> simp [or_iff_not_imp_left, and_assoc]
  rw [hbits]
  constructor
  · rintro ⟨hvisible, hnamed, hfile⟩
    refine ⟨fun hhidden rest heq => hvisible hhidden (startsWithDot_iff.mpr ⟨rest, heq⟩), hnamed, ?_,
      fun _ hdir => (hfile hdir).2⟩
    intro hsuffixes hdir
    obtain ⟨suffix, hmem, hends⟩ := (hfile hdir).1 hsuffixes
    exact ⟨suffix, hmem, endsWith_iff.mp hends⟩
  · intro h
    refine ⟨fun hhidden hdot => ?_, h.named, fun hdir => ⟨fun hsuffixes => ?_, ?_⟩⟩
    · obtain ⟨rest, heq⟩ := startsWithDot_iff.mp hdot
      exact h.visible hhidden rest heq
    · obtain ⟨suffix, hmem, hends⟩ := h.suffixed hsuffixes hdir
      exact ⟨suffix, hmem, endsWith_iff.mpr hends⟩
    · by_cases hzero : f.minSize = 0
      · rw [hzero]
        exact UInt64.zero_le
      · exact h.large hzero hdir

/-- A filter without criteria lets everything pass. -/
theorem accepts_of_no_criteria (h : f.hasCriteria = false) (d : Document) : f.accepts d = true := by
  simp only [hasCriteria, Bool.or_eq_false_iff, Bool.not_eq_false', List.isEmpty_iff, bne_eq_false_iff_eq] at h
  obtain ⟨⟨⟨hsuffixes, hnames⟩, hsize⟩, hhidden⟩ := h
  exact accepts_iff.mpr ⟨fun hh => Bool.noConfusion (hhidden.symm.trans hh), fun hne => absurd hnames hne,
    fun hne => absurd hsuffixes hne, fun hne => absurd hsize hne⟩

end Filter

namespace Service

/-! ## Windows -/

/-- Whether a document passes a filter, if there is one. -/
def passes (filter : Option Filter) (d : Document) : Bool := filter.all (·.accepts d)

section

variable {σ η : Type} {S : Service σ η} {b : Backend σ η} {uri : String} {path : Path} {entries : List Entry}
  {docs : List Document}

/-- Whether some documents are those of some entries, one by one, and looking at them changes nothing. -/
def Shows (b : Backend σ η) (uri : String) (path : Path) (S : Service σ η) : List Entry → List Document → Prop :=
  List.Forall₂ fun entry d => document b uri path entry S = .ok d S

/-- If nothing fails, a window is cut out of the documents that pass the filter. -/
theorem window_of_shows (h : Shows b uri path S entries docs) (filter : Option Filter)
    (offset stop position : Nat) :
    window b uri path filter offset stop position entries S
      = .ok (((docs.filter (passes filter)).take (stop - position)).drop (offset - position)) S := by
  induction h generalizing position with
  | nil =>
    rw [List.filter_nil, List.take_nil, List.drop_nil]
    rfl
  | @cons entry d entries docs hd _ ih =>
    rw [window]
    by_cases hstop : stop ≤ position
    · rw [if_pos hstop, Nat.sub_eq_zero_of_le hstop, List.take_zero, List.drop_nil]
      rfl
    · have htake : stop - position = stop - (position + 1) + 1 := by omega
      have hdrop : position < offset → offset - position = offset - (position + 1) + 1 := by omega
      rw [if_neg hstop]
      by_cases hskip : (filter.isNone && decide (position < offset)) = true
      · -- Without a filter an entry in front of the window counts without a look.
        obtain ⟨hnone, hbefore⟩ := Bool.and_eq_true_iff.mp hskip
        obtain rfl := Option.isNone_iff_eq_none.mp hnone
        have hpasses : passes none d = true := rfl
        rw [if_pos hskip, ih, List.filter_cons_of_pos hpasses, htake, hdrop (of_decide_eq_true hbefore),
          List.take_succ_cons, List.drop_succ_cons]
      · rw [if_neg hskip, bind_apply, hd]
        change (if passes filter d = true then _ else _ : Op σ η (List Document)) S = _
        by_cases hpasses : passes filter d = true
        · rw [if_pos hpasses, bind_apply, ih, List.filter_cons_of_pos hpasses, htake, List.take_succ_cons]
          change EStateM.Result.ok (if offset ≤ position then _ else _) S = _
          by_cases hoffset : offset ≤ position
          · rw [if_pos hoffset, Nat.sub_eq_zero_of_le hoffset, Nat.sub_eq_zero_of_le (Nat.le_succ_of_le hoffset)]
            rfl
          · rw [if_neg hoffset, hdrop (Nat.lt_of_not_le hoffset), List.drop_succ_cons]
        · rw [if_neg hpasses, ih, List.filter_cons_of_neg hpasses]

end

/-! ## The documents of a directory -/

open Memory

variable {S : Service Store OpenFile} {uri name : String}

/-- The documents of the entries of a directory, in listing order. -/
def documents (S : Service Store OpenFile) (uri : String) : List Document :=
  (S.fs.names (S.place uri)).filterMap fun name =>
    (S.fs.find? (S.place uri ++ [name])).map fun node => Document.ofStat (Uri.child uri name) name node.stat

/-- The document of an entry that is there. -/
theorem document_of_find? {entry : Entry} {node : Node} (hname : IsName entry.name)
    (hnode : S.fs.find? (S.place uri ++ [entry.name]) = some node) :
    document backend uri ⟨Uri.pathOf S.bundle uri⟩ entry S
      = .ok (Document.ofStat (Uri.child uri entry.name) entry.name node.stat) S := by
  have hfound : S.fs.find? (Path.join ⟨Uri.pathOf S.bundle uri⟩ entry.name).location = some node := by
    rw [Path.location_join _ hname]
    exact hnode
  rw [document, bind_apply, reportAs_apply, ← backendTo_depth, run_stat hfound]
  rfl

/-- The entries that a directory answers show its documents. -/
theorem shows_documents (hwf : S.fs.WellFormed) {ino : Nat} {names : List String}
    (hdir : S.fs.find? (S.place uri) = some (.dir ino names)) :
    ∃ entries, backend.run (.list ⟨Uri.pathOf S.bundle uri⟩) S.fs = .ok entries S.fs ∧
      Shows backend uri ⟨Uri.pathOf S.bundle uri⟩ S entries (S.documents uri) := by
  refine ⟨names.filterMap fun n => (S.fs.find? (S.place uri ++ [n])).map fun node => ⟨n, node.kind⟩, ?_, ?_⟩
  · refine run_of_ok ?_
    change list (S.place uri) S.fs = _
    rw [list_apply, hdir]
  · have hnames : ∀ n ∈ names, IsName n := fun n hn =>
      hwf.isName (Store.mem_names_iff.mpr ⟨ino, names, hdir, hn⟩)
    rw [documents, Store.names_of_find? hdir]
    change Shows _ _ _ _ _ (names.filterMap _)
    clear hdir
    induction names with
    | nil => exact .nil
    | cons n names ih =>
      have hrest := ih fun m hm => hnames m (List.mem_cons_of_mem n hm)
      rw [List.filterMap_cons, List.filterMap_cons]
      cases hnode : S.fs.find? (S.place uri ++ [n]) with
      | none => exact hrest
      | some node => exact .cons (document_of_find? (hnames n List.mem_cons_self) hnode) hrest

/-- A listing of a directory is cut out of its documents that pass the filter. -/
theorem listFiles_eq (hwf : S.fs.WellFormed) (haddress : Uri.isAddress uri = true)
    (hdir : S.fs.IsDir (S.place uri)) (offset count : Nat) (filter : Option Filter) :
    listFiles backend uri offset count filter S
      = .ok ((((S.documents uri).filter (passes (filter.filter Filter.hasCriteria))).take
          (windowEnd offset count)).drop offset) S := by
  obtain ⟨ino, names, hfound⟩ := hdir
  obtain ⟨entries, hlist, hshows⟩ := shows_documents hwf hfound
  have hstat : backend.run (.stat ⟨Uri.pathOf S.bundle uri⟩) S.fs = .ok (Node.dir ino names).stat S.fs :=
    run_stat hfound
  rw [listFiles, bind_apply, check_apply haddress]
  dsimp only
  rw [bind_apply, pathOf_apply]
  dsimp only
  rw [bind_apply, passOn_apply, hstat]
  dsimp only
  rw [isDir_stat]
  change (reportAs (backend.run (.list ⟨Uri.pathOf S.bundle uri⟩)) >>= _ : Op Store OpenFile (List Document)) S = _
  rw [bind_apply, reportAs_apply, hlist]
  exact window_of_shows hshows _ offset (windowEnd offset count) 0

/-- Without a criterion a listing is cut out of all documents. -/
theorem listFiles_unfiltered (hwf : S.fs.WellFormed) (haddress : Uri.isAddress uri = true)
    (hdir : S.fs.IsDir (S.place uri)) (offset count : Nat) {filter : Option Filter}
    (hfilter : filter.filter Filter.hasCriteria = none) :
    listFiles backend uri offset count filter S
      = .ok (((S.documents uri).take (windowEnd offset count)).drop offset) S := by
  have hall : (S.documents uri).filter (passes none) = S.documents uri := List.filter_eq_self.mpr fun _ _ => rfl
  rw [listFiles_eq hwf haddress hdir, hfilter, hall]

/-- The document of a new entry comes behind all others. -/
theorem documents_add (hwf : S.fs.WellFormed) (hdir : S.fs.IsDir (S.place uri))
    (hfree : S.fs.find? (S.place uri ++ [name]) = none) (node : Nat → Node) :
    documents { S with fs := S.fs.add (S.place uri) name node } uri
      = S.documents uri ++ [Document.ofStat (Uri.child uri name) name (node S.fs.nextIno).stat] := by
  have hlast : (S.fs.add (S.place uri) name node).find? (S.place uri ++ [name]) = some (node S.fs.nextIno) := by
    rw [Store.find?_add, if_pos rfl]
  have hold : ∀ m ∈ S.fs.names (S.place uri),
      (S.fs.add (S.place uri) name node).find? (S.place uri ++ [m]) = S.fs.find? (S.place uri ++ [m]) := by
    intro m hm
    have hother : S.place uri ++ [m] ≠ S.place uri ++ [name] := by
      intro heq
      have hthere := (hwf.listed _ m).mpr hm
      rw [heq, hfree] at hthere
      cases hthere
    rw [Store.find?_add, if_neg hother]
    cases S.fs.find? (S.place uri ++ [m]) with
    | none => rfl
    | some found => exact congrArg some (Node.attachAt_ne (Location.ne_child _ m).symm)
  unfold documents
  change ((S.fs.add (S.place uri) name node).names (S.place uri)).filterMap (fun m =>
    ((S.fs.add (S.place uri) name node).find? (S.place uri ++ [m])).map _) = _
  rw [hwf.names_add hdir hfree, List.filterMap_append, List.filterMap_cons, hlast]
  refine congrArg (· ++ _) (List.filterMap_congr fun m hm => ?_)
  rw [hold m hm]

end Service

end FileProvider
