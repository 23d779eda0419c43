import FileProvider.Proofs.Host.Changing

/-!
# Opening where no link is on the way

In a tree a walk that meets no link takes the names of its location one after the other. It comes to what
is at the location, to the first name that a directory does not hold, or to a file behind which it cannot
go on. What opening does for a mode that can be asked for follows from which of these it is.
-/

set_option autoImplicit false

namespace FileProvider.Host

variable {h : Host} {ending : Ending} {here a rest p l : Location} {n : String} {node : HostNode}
  {r : Except IoError Place} {m : OpenMode}

/-! ## Walks -/

/-- A step to a child is no slash at the end of a path. -/
theorem ne_slash {steps : List String} (hnames : ∀ step ∈ steps, IsChildStep step) : steps ≠ [""] := by
  rintro rfl
  exact (hnames "" List.mem_cons_self).ne_empty rfl

/-- A walk goes on from an entry that is no link. -/
theorem Walks.of_child (hwf : h.WellFormed) (hw : Walks h ending here (n :: rest) r) (hstep : IsChildStep n)
    (hrest : rest ≠ [""]) (hnode : h.find? (here ++ [n]) = some node)
    (hplain : ∀ target, node ≠ .link target) : Walks h ending (here ++ [n]) rest r := by
  have hlink : ∀ target, h.find? (here ++ [n]) ≠ some (.link target) := by
    intro target heq
    exact hplain target (Option.some.inj (hnode.symm.trans heq))
  cases hw with
  | blocked hdir => exact absurd (hwf.parent hnode) hdir
  | stay _ hstay => exact absurd hstay (not_or.mpr ⟨hstep.ne_dot, hstep.ne_empty⟩)
  | up => exact absurd rfl hstep.ne_dots
  | slash => exact absurd rfl hrest
  | long _ hlong => exact absurd (hwf.short hnode) (Nat.not_le.mpr hlong)
  | missing _ _ _ hnone => cases hnone.symm.trans hnode
  | lost _ _ _ hnone => cases hnone.symm.trans hnode
  | kept _ _ hkept => exact absurd hkept (hlink _)
  | worn hworn => exact absurd hworn (hlink _)
  | follow _ hfollow => exact absurd hfollow (hlink _)
  | child _ _ _ _ _ hon => exact hon

/-- A walk passes through directories to what lies below them. -/
theorem Walks.through (hwf : h.WellFormed) (hw : Walks h ending here (a ++ rest) r)
    (hnames : ∀ step ∈ a ++ rest, IsChildStep step) (hnode : h.find? (here ++ a) = some node)
    (hplain : ∀ target, node ≠ .link target) : Walks h ending (here ++ a) rest r := by
  induction a generalizing here with
  | nil =>
    rw [List.append_nil]
    exact hw
  | cons n a ih =>
    have htail : ∀ step ∈ a ++ rest, IsChildStep step := fun step hstep => hnames step (List.mem_cons_of_mem n hstep)
    rw [List.append_cons] at hnode ⊢
    obtain ⟨next, hnext, hnextPlain⟩ : ∃ next, h.find? (here ++ [n]) = some next ∧
        ∀ target, next ≠ .link target := by
      by_cases ha : a = []
      · subst ha
        exact ⟨node, by rwa [List.append_nil] at hnode, hplain⟩
      · exact ⟨.dir, hwf.dir_above ha hnode, fun target => HostNode.noConfusion⟩
    exact ih (hw.of_child hwf (hnames n List.mem_cons_self) (ne_slash htail) hnext hnextPlain) htail hnode

/-- A location that can be asked for is walked from the root. -/
theorem walks_resolve (hask : askable l = .ok ()) (h : Host) (ending : Ending) :
    Walks h ending [] l (h.resolve ending l) := by
  rw [resolve_eq_walk hask]
  exact walks_walk linkLimit [] l

theorem resolve_found (hwf : h.WellFormed) (hask : askable l = .ok ()) (hnode : h.find? l = some node)
    (hplain : ∀ target, node ≠ .link target) : h.resolve ending l = .ok (l, some node) := by
  have hw : Walks h ending [] (l ++ []) (h.resolve ending l) := by
    rw [List.append_nil]
    exact walks_resolve hask h ending
  have hend := hw.through hwf (by rw [List.append_nil]; exact hwf.descends hnode) hnode hplain
  generalize h.resolve ending l = found at hend
  cases hend
  rw [List.nil_append, hnode]

/-- Where a name is missing a walk ends, unless the name is too long for any directory. -/
theorem resolve_missing (hwf : h.WellFormed) (hask : askable (p ++ n :: rest) = .ok ())
    (hl : Location.Descends (p ++ n :: rest)) (hp : h.find? p = some .dir) (hnone : h.find? (p ++ [n]) = none) :
    h.resolve ending (p ++ n :: rest) = if nameLimit < Name.size n then .error (.os Errno.nameTooLong)
      else if rest = [] then .ok (p ++ [n], none) else .error (.os Errno.noEntry) := by
  have hsteps : ∀ step ∈ n :: rest, IsChildStep step := (Location.descends_append.mp hl).2
  have hstep : IsChildStep n := hsteps n List.mem_cons_self
  have hend := (walks_resolve hask h ending).through hwf hl hp fun _ => HostNode.noConfusion
  generalize h.resolve ending (p ++ n :: rest) = found at hend ⊢
  rw [List.nil_append] at hend
  cases hend with
  | blocked hdir => exact absurd hp hdir
  | stay _ hstay => exact absurd hstay (not_or.mpr ⟨hstep.ne_dot, hstep.ne_empty⟩)
  | up => exact absurd rfl hstep.ne_dots
  | slash => exact absurd rfl (ne_slash fun step hmem => hsteps step (List.mem_cons_of_mem n hmem))
  | long _ hlong => rw [if_pos hlong]
  | missing _ _ hshort => rw [if_neg (Nat.not_lt.mpr hshort), if_pos rfl]
  | lost _ hrest hshort => rw [if_neg (Nat.not_lt.mpr hshort), if_neg hrest]
  | kept _ _ hlink => cases hnone.symm.trans hlink
  | worn hlink => cases hnone.symm.trans hlink
  | follow _ hlink => cases hnone.symm.trans hlink
  | child _ _ _ hnode => cases hnone.symm.trans hnode

/-- Behind a file a walk does not go on. -/
theorem resolve_behind {id : Nat} (hwf : h.WellFormed) (hask : askable (p ++ n :: rest) = .ok ())
    (hl : Location.Descends (p ++ n :: rest)) (hp : h.find? p = some (.file id)) :
    h.resolve ending (p ++ n :: rest) = .error (.os Errno.notADirectory) := by
  have hdir : h.find? p ≠ some .dir := by
    rw [hp]
    exact nofun
  have hstep : IsChildStep n := (Location.descends_append.mp hl).2 n List.mem_cons_self
  have hend := (walks_resolve hask h ending).through hwf hl hp fun _ => HostNode.noConfusion
  generalize h.resolve ending (p ++ n :: rest) = found at hend ⊢
  rw [List.nil_append] at hend
  cases hend with
  | blocked => rfl
  | worn hlink => exact absurd (hwf.parent hlink) hdir
  | _ => exact absurd (by assumption) hdir

/-! ## Opening -/

theorem openNode_dir (hwf : h.WellFormed) (hm : validMode m = true) (hask : askable l = .ok ())
    (hdir : h.find? l = some .dir) : openNode l m h = if m.createNew then .error (.os Errno.taken) h
      else if m.write || m.append || m.create then .error (.os Errno.isADirectory) h else .ok none h := by
  rw [openNode_valid hm, resolve_found hwf hask hdir fun _ => HostNode.noConfusion]
  rfl

theorem openNode_file {id : Nat} (hwf : h.WellFormed) (hm : validMode m = true) (hask : askable l = .ok ())
    (hfile : h.find? l = some (.file id)) : openNode l m h = if m.createNew then .error (.os Errno.taken) h
      else .ok (some id) (if m.truncate then h.withContent id [] else h) := by
  rw [openNode_valid hm, resolve_found hwf hask hfile fun _ => HostNode.noConfusion, opening]

theorem openNode_missing (hwf : h.WellFormed) (hm : validMode m = true)
    (hask : askable (p ++ n :: rest) = .ok ()) (hl : Location.Descends (p ++ n :: rest))
    (hp : h.find? p = some .dir) (hnone : h.find? (p ++ [n]) = none) :
    openNode (p ++ n :: rest) m h = if nameLimit < Name.size n then .error (.os Errno.nameTooLong) h
      else if rest = [] ∧ (m.create || m.createNew) = true then .ok (some h.nextId) (h.withFile (p ++ [n]))
      else .error (.os Errno.noEntry) h := by
  rw [openNode_valid hm, resolve_missing hwf hask hl hp hnone]
  by_cases hlong : nameLimit < Name.size n
  · rw [if_pos hlong, if_pos hlong, opening]
  · rw [if_neg hlong, if_neg hlong]
    by_cases hrest : rest = []
    · simp only [hrest, ↓reduceIte, opening, true_and]
    · simp only [hrest, ↓reduceIte, opening, false_and]

theorem openNode_behind {id : Nat} (hwf : h.WellFormed) (hm : validMode m = true)
    (hask : askable (p ++ n :: rest) = .ok ()) (hl : Location.Descends (p ++ n :: rest))
    (hp : h.find? p = some (.file id)) :
    openNode (p ++ n :: rest) m h = .error (.os Errno.notADirectory) h := by
  rw [openNode_valid hm, resolve_behind hwf hask hl hp, opening]

theorem openNode_unaskable {e : IoError} (hm : validMode m = true) (hask : askable l = .error e) (h : Host) :
    openNode l m h = .error e h := by
  rw [openNode_valid hm, resolve_eq_error hask, opening]

end FileProvider.Host
