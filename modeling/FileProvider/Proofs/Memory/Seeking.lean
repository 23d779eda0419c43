import FileProvider.Proofs.Memory.Opening

/-!
# Opening by what a search comes to

A store finds what is at a location in one look, whatever lies on the way. `Store.seek` goes there name by
name, as a walk on the host does, and stops where it cannot go on. What opening a file does is the same for
all locations for which the search stops in the same way.
-/

set_option autoImplicit false

namespace FileProvider.Memory

/-- What a search comes to. -/
inductive Found where
  | dir
  | file
  /-- The first name that its directory does not hold, and the names after it. -/
  | missing (name : String) (rest : List String)
  /-- A name that is looked for in a file, and the names after it. -/
  | behind (name : String) (rest : List String)
deriving DecidableEq, Repr

/-- Searches name by name, from a directory on. -/
def Store.seek (s : Store) (here : Location) : List String → Found
  | [] => .dir
  | name :: rest =>
    match s.find? (here ++ [name]) with
    | none => .missing name rest
    | some (.dir _ _) => s.seek (here ++ [name]) rest
    | some (.file _ _) =>
      match rest with
      | [] => .file
      | name :: rest => .behind name rest

variable {s : Store} {here l p : Location} {n : String} {rest : List String} {mode : OpenMode}

/-- What is known of a location by what a search for it comes to. -/
inductive Sought (s : Store) : Location → Found → Prop where
  | dir {l : Location} (hdir : s.IsDir l) : Sought s l .dir
  | file {l : Location} {ino : Nat} {data : Bytes} (hfile : s.find? l = some (.file ino data)) :
      Sought s l .file
  | missing {p : Location} {n : String} {rest : List String} (hp : s.IsDir p)
      (hnone : s.find? (p ++ [n]) = none) : Sought s (p ++ n :: rest) (.missing n rest)
  | behind {p : Location} {n : String} {rest : List String} {ino : Nat} {data : Bytes}
      (hfile : s.find? p = some (.file ino data)) : Sought s (p ++ n :: rest) (.behind n rest)

theorem sought_seek (hdir : s.IsDir here) (rest : List String) :
    Sought s (here ++ rest) (s.seek here rest) := by
  induction rest generalizing here with
  | nil =>
    rw [List.append_nil]
    exact .dir hdir
  | cons n rest ih =>
    unfold Store.seek
    split
    · next hnone => exact .missing hdir hnone
    · next ino names hchild =>
      rw [List.append_cons]
      exact ih ⟨ino, names, hchild⟩
    · next ino data hchild =>
      cases rest with
      | nil => exact .file hchild
      | cons m rest =>
        rw [List.append_cons]
        exact .behind hchild

/-- The same from the root. -/
theorem sought_root (hs : s.WellFormed) (l : Location) : Sought s l (s.seek [] l) :=
  sought_seek hs.root l

/-- Directly in a file there is nothing. -/
theorem none_in_file (hs : s.WellFormed) {ino : Nat} {data : Bytes}
    (hfile : s.find? p = some (.file ino data)) (n : String) : s.find? (p ++ [n]) = none :=
  hs.none_below_empty (Store.names_of_find? hfile) (List.cons_ne_nil n [])

/-! ## Opening -/

theorem openFile_dir (hdir : s.IsDir l) (mode : OpenMode) :
    openFile l mode s = .error (.isADirectory l.text) s := by
  obtain ⟨ino, names, hfind⟩ := hdir
  refine openFile_refused ?_
  rw [prepare_apply, hfind]

theorem openFile_file (hs : s.WellFormed) {ino : Nat} {data : Bytes}
    (hfile : s.find? l = some (.file ino data)) (mode : OpenMode) :
    openFile l mode s = if mode.createNew then .error (.alreadyExists l.text) s
      else .ok ⟨l, if mode.truncate then [] else data, 0, mode, false⟩
        (if mode.truncate then s.put l (.file ino []) else s) := by
  cases hnew : mode.createNew with
  | true =>
    refine openFile_refused ?_
    rw [prepare_apply, hfile, hnew]
    rfl
  | false =>
    refine (openFile_eq_ok_iff hs).mpr ⟨ino, _, rfl, ?_⟩
    cases htruncate : mode.truncate with
    | true => exact .emptied hfile hnew htruncate
    | false => exact .found hfile hnew htruncate

/-- What is missing is created if its name is the last one. -/
theorem openFile_created (hs : s.WellFormed) (hn : Name.isText n = true) (hp : s.IsDir p)
    (hnone : s.find? (p ++ [n]) = none) (hcreate : (mode.create || mode.createNew) = true) :
    openFile (p ++ [n]) mode s
      = .ok ⟨p ++ [n], [], 0, mode, false⟩ (s.add p n fun ino => .file ino []) :=
  (openFile_eq_ok_iff hs).mpr ⟨_, [], rfl, .created hn hp hnone hcreate⟩

/-- Whether opening a location, if nothing is there, has to create a file under a name that is no text. -/
def Unnamable (mode : OpenMode) (l : Location) : Prop :=
  (mode.create || mode.createNew) = true ∧ ∃ p n, l = p ++ [n] ∧ Name.isText n = false

/-- No file is created under a name that is no text. -/
theorem openFile_unnamable (hs : s.WellFormed) (hname : Unnamable mode l) :
    ∃ what, openFile l mode s = .error (.invalidPath what) s := by
  obtain ⟨hcreate, p, n, rfl, hn⟩ := hname
  refine ⟨"invalid name: " ++ Location.text (p ++ [n]), openFile_refused ?_⟩
  rw [prepare_apply, hs.none_of_foreign hn, hcreate]
  change write _ [] s = _
  rw [write_eq, holderOf_foreign hn]

/-- What may be created has a name that is text. -/
theorem isText_of_not_unnamable (hname : ¬ Unnamable mode (p ++ [n]))
    (hcreate : (mode.create || mode.createNew) = true) : Name.isText n = true := by
  by_contra hn
  exact hname ⟨hcreate, p, n, rfl, Bool.eq_false_iff.mpr hn⟩

/-- What is missing is not found if it is not to be created, or lies in nothing. -/
theorem openFile_missing (hs : s.WellFormed) (hname : ¬ Unnamable mode (p ++ n :: rest))
    (hnone : s.find? (p ++ [n]) = none) (hrefuse : ¬ (rest = [] ∧ (mode.create || mode.createNew) = true)) :
    ∃ what, openFile (p ++ n :: rest) mode s = .error (.notFound what) s := by
  have hbelow : ∀ r : Location, s.find? (p ++ n :: r) = none := by
    intro r
    rw [List.append_cons]
    exact hs.none_below hnone r
  cases hcreate : mode.create || mode.createNew with
  | false =>
    refine ⟨Location.text (p ++ n :: rest), openFile_refused ?_⟩
    rw [prepare_apply, hbelow, hcreate]
    rfl
  | true =>
    have hrest : rest ≠ [] := fun hnil => hrefuse ⟨hnil, hcreate⟩
    obtain ⟨r, m, rfl⟩ := Location.exists_eq_append hrest
    have hplace : p ++ n :: (r ++ [m]) = (p ++ n :: r) ++ [m] := by rw [List.append_assoc, List.cons_append]
    refine ⟨Location.text (p ++ n :: r), openFile_refused ?_⟩
    rw [hplace] at hname ⊢
    have hholder : holderOf (p ++ n :: r ++ [m]) s = .error (.notFound (Location.text (p ++ n :: r))) s := by
      rw [holderOf, parentOf_child (isText_of_not_unnamable hname hcreate), pure_bind]
      dsimp only
      rw [bind_apply, requireDir_apply, hbelow]
    rw [prepare_apply, ← hplace, hbelow, hcreate, hplace]
    change write _ [] s = _
    rw [write_eq, hholder]

/-- Nothing is created in a file. -/
theorem openFile_behind (hs : s.WellFormed) {ino : Nat} {data : Bytes}
    (hfile : s.find? p = some (.file ino data)) (hn : Name.isText n = true)
    (hcreate : (mode.create || mode.createNew) = true) :
    openFile (p ++ [n]) mode s = .error (.notADirectory p.text) s := by
  refine openFile_refused ?_
  have hholder : holderOf (p ++ [n]) s = .error (.notADirectory p.text) s := by
    rw [holderOf, parentOf_child hn, pure_bind]
    dsimp only
    rw [bind_apply, requireDir_apply, hfile]
  rw [prepare_apply, none_in_file hs hfile, hcreate]
  change write _ [] s = _
  rw [write_eq, hholder]

end FileProvider.Memory
