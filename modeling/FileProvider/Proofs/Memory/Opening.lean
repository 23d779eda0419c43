import FileProvider.Proofs.Memory.WellFormed

/-!
# Writing and opening a file

Writing either fails or leaves a file with the given content: the old one, or a new one in a directory.
Opening writes at most twice, once to create the file and once to empty it, and the second time changes
nothing that the first has not done. So an opening either fails without a change or makes one of the
three changes that `Opened` lists; `Alters` says when that leaves another store.
-/

set_option autoImplicit false

namespace FileProvider.Memory

variable {s t u : Store} {l : Location} {data : Bytes} {mode : OpenMode}

/-! ## Writing -/

/-- What writing a file makes of a store. -/
inductive Written (data : Bytes) (s : Store) : Location → Store → Prop where
  /-- The file that is there has another content. -/
  | replaced {l : Location} {ino : Nat} {old : Bytes} (hfile : s.find? l = some (.file ino old)) :
      Written data s l (s.put l (.file ino data))
  /-- There is one more file in a directory. -/
  | created {p : Location} {n : String} (hn : Name.isText n = true) (hp : s.IsDir p)
      (hfree : s.find? (p ++ [n]) = none) : Written data s (p ++ [n]) (s.add p n fun ino => .file ino data)

theorem atomic_writing (l : Location) (data : Bytes) (s : Store) :
    Atomic (write l data) s fun _ t => Written data s l t := by
  rw [Atomic, write_eq]
  rcases holderOf_cases l s with ⟨e, he, -⟩ | ⟨p, n, rfl, hn, hp, hholder⟩
  · exact .inl ⟨e, by rw [he]⟩
  · rw [hholder]
    dsimp only
    cases hchild : s.find? (p ++ [n]) with
    | none => exact .inr ⟨(), _, rfl, .created hn hp hchild⟩
    | some found =>
      cases found with
      | dir ino names => exact .inl ⟨_, rfl⟩
      | file ino old => exact .inr ⟨(), _, rfl, .replaced hchild⟩

/-- In a well-formed store writing succeeds exactly if there is a file, or a place for one. -/
theorem write_eq_ok_iff (h : s.WellFormed) : write l data s = .ok () t ↔ Written data s l t := by
  constructor
  · intro hok
    rcases atomic_writing l data s with ⟨e, he⟩ | ⟨_, u, hu, hwritten⟩
    · cases hok.symm.trans he
    · cases hok.symm.trans hu
      exact hwritten
  · intro hwritten
    cases hwritten with
    | created hn hp hfree => exact write_free hn hp hfree data
    | replaced hfile => exact write_file (h.admits_file hfile) hfile data

/-! ## Opening -/

/-- What opening a file makes of a store; the number and the content are those that the file has then. -/
inductive Opened (mode : OpenMode) (s : Store) : Location → Nat → Bytes → Store → Prop where
  /-- The file is there and stays as it is. -/
  | found {l : Location} {ino : Nat} {data : Bytes} (hfile : s.find? l = some (.file ino data))
      (hnew : mode.createNew = false) (hkeep : mode.truncate = false) : Opened mode s l ino data s
  /-- The file is there and loses its content. -/
  | emptied {l : Location} {ino : Nat} {old : Bytes} (hfile : s.find? l = some (.file ino old))
      (hnew : mode.createNew = false) (htruncate : mode.truncate = true) :
      Opened mode s l ino [] (s.put l (.file ino []))
  /-- There is one more file, an empty one. -/
  | created {p : Location} {n : String} (hn : Name.isText n = true) (hp : s.IsDir p)
      (hfree : s.find? (p ++ [n]) = none) (hcreate : (mode.create || mode.createNew) = true) :
      Opened mode s (p ++ [n]) s.nextIno [] (s.add p n fun ino => .file ino [])

/-- The file that was opened is there. -/
theorem Opened.find? {ino : Nat} (h : Opened mode s l ino data t) :
    t.find? l = some (.file ino data) := by
  cases h with
  | found hfile => exact hfile
  | emptied => rw [Store.find?_put, if_pos rfl]
  | created => rw [Store.find?_add, if_pos rfl]

theorem prepare_apply (l : Location) (mode : OpenMode) (s : Store) :
    prepare l mode s = match s.find? l with
      | some (.dir _ _) => .error (.isADirectory l.text) s
      | some (.file _ _) => if mode.createNew then .error (.alreadyExists l.text) s else .ok () s
      | none =>
        if mode.create || mode.createNew then write l [] s else .error (.notFound l.text) s := by
  rw [prepare, bind_apply, look_apply]
  cases s.find? l with
  | none => cases mode.create || mode.createNew <;> rfl
  | some node =>
    cases node with
    | dir ino names => rfl
    | file ino data => cases mode.createNew <;> rfl

/-- Preparing fails without a change, finds the file, or creates it. -/
theorem prepare_cases (l : Location) (mode : OpenMode) (s : Store) :
    (∃ e, prepare l mode s = .error e s) ∨
    (∃ ino data, s.find? l = some (.file ino data) ∧ mode.createNew = false ∧
      prepare l mode s = .ok () s) ∨
    (∃ p n, l = p ++ [n] ∧ Name.isText n = true ∧ s.IsDir p ∧ s.find? l = none ∧
      (mode.create || mode.createNew) = true ∧
      prepare l mode s = .ok () (s.add p n fun ino => .file ino [])) := by
  rw [prepare_apply]
  cases hl : s.find? l with
  | none =>
    cases hcreate : mode.create || mode.createNew with
    | false => exact .inl ⟨_, rfl⟩
    | true =>
      dsimp only
      rw [if_pos rfl]
      rcases atomic_writing l [] s with ⟨e, he⟩ | ⟨_, t, ht, hwritten⟩
      · exact .inl ⟨e, he⟩
      · cases hwritten with
        | replaced hfile => cases hl.symm.trans hfile
        | @created p n hn hp => exact .inr (.inr ⟨p, n, rfl, hn, hp, rfl, rfl, ht⟩)
  | some node =>
    cases node with
    | dir ino names => exact .inl ⟨_, rfl⟩
    | file ino data =>
      cases hnew : mode.createNew with
      | true => exact .inl ⟨_, rfl⟩
      | false => exact .inr (.inl ⟨ino, data, rfl, rfl, rfl⟩)

theorem read_file {ino : Nat} (hfile : s.find? l = some (.file ino data)) : read l s = .ok data s := by
  rw [read_apply, hfile]

theorem openFile_refused {e : FsError} (hprepare : prepare l mode s = .error e t) :
    openFile l mode s = .error e t := by
  rw [openFile, bind_apply, hprepare]

/-- The rest of opening a file that is not to be emptied. -/
theorem openFile_kept {ino : Nat} (hprepare : prepare l mode s = .ok () t)
    (hkeep : mode.truncate = false) (hfile : t.find? l = some (.file ino data)) :
    openFile l mode s = .ok ⟨l, data, 0, mode, false⟩ t := by
  rw [openFile, bind_apply, hprepare]
  dsimp only
  rw [hkeep, if_neg Bool.false_ne_true, bind_apply, read_file hfile]
  rfl

/-- The rest of opening a file that is to be emptied. -/
theorem openFile_emptied {ino : Nat} (hprepare : prepare l mode s = .ok () t)
    (htruncate : mode.truncate = true) (hwrite : write l [] t = .ok () u)
    (hfile : u.find? l = some (.file ino data)) :
    openFile l mode s = .ok ⟨l, data, 0, mode, false⟩ u := by
  rw [openFile, bind_apply, hprepare]
  dsimp only
  rw [htruncate, if_pos rfl, bind_apply, hwrite]
  dsimp only
  rw [bind_apply, read_file hfile]
  rfl

/-- Emptying a file that was created just now changes nothing. -/
theorem write_created {p : Location} {n : String} (hkeys : s.KeysNodup) (hn : Name.isText n = true)
    (hp : s.IsDir p) :
    write (p ++ [n]) [] (s.add p n fun ino => .file ino [])
      = .ok () (s.add p n fun ino => .file ino []) := by
  have hfile : (s.add p n fun ino => .file ino []).find? (p ++ [n]) = some (.file s.nextIno []) := by
    rw [Store.find?_add, if_pos rfl]
  have hdir : (s.add p n fun ino => .file ino []).IsDir p := by
    obtain ⟨ino, names, hp⟩ := hp
    rw [Store.IsDir, Store.find?_add, if_neg (Location.ne_child p n), hp]
    exact ⟨ino, _, congrArg some Node.attachAt_self⟩
  have hnodup : (s.add p n fun ino => .file ino []).KeysNodup := (hkeys.put _ _).adjust _ _
  rw [write_file ⟨p, n, rfl, hn, hdir⟩ hfile, Store.put, Catalogue.put_same hnodup hfile]

/-- Opening fails without a change, or makes one of the changes that an opening can make. -/
theorem atomic_opening (hkeys : s.KeysNodup) (l : Location) (mode : OpenMode) :
    Atomic (openFile l mode) s fun file t =>
      ∃ ino data, file = ⟨l, data, 0, mode, false⟩ ∧ Opened mode s l ino data t := by
  rcases prepare_cases l mode s with ⟨e, he⟩ | ⟨ino, data, hfile, hnew, hprepare⟩ |
    ⟨p, n, rfl, hn, hp, hfree, hcreate, hprepare⟩
  · exact .inl ⟨e, openFile_refused he⟩
  · cases htruncate : mode.truncate with
    | false =>
      exact .inr ⟨_, s, openFile_kept hprepare htruncate hfile, ino, data, rfl,
        .found hfile hnew htruncate⟩
    | true =>
      rcases atomic_writing l [] s with ⟨e, he⟩ | ⟨_, t, ht, hwritten⟩
      · refine .inl ⟨e, ?_⟩
        rw [openFile, bind_apply, hprepare]
        dsimp only
        rw [htruncate, if_pos rfl, bind_apply, he]
      · cases hwritten with
        | created hn hp hfree => cases hfree.symm.trans hfile
        | @replaced _ ino old hfile =>
          have hopened : Opened mode s l ino [] _ := .emptied hfile hnew htruncate
          exact .inr ⟨_, _, openFile_emptied hprepare htruncate ht hopened.find?, ino, [], rfl, hopened⟩
  · have hopened : Opened mode s (p ++ [n]) s.nextIno [] _ := .created hn hp hfree hcreate
    refine .inr ⟨_, _, ?_, _, [], rfl, hopened⟩
    cases htruncate : mode.truncate with
    | false => exact openFile_kept hprepare htruncate hopened.find?
    | true => exact openFile_emptied hprepare htruncate (write_created hkeys hn hp) hopened.find?

/-- In a well-formed store a file is opened exactly if one of the changes can be made. -/
theorem openFile_eq_ok_iff (h : s.WellFormed) {file : OpenFile} :
    openFile l mode s = .ok file t ↔
      ∃ ino data, file = ⟨l, data, 0, mode, false⟩ ∧ Opened mode s l ino data t := by
  constructor
  · intro hok
    rcases atomic_opening h.keys l mode with ⟨e, he⟩ | ⟨_, u, hu, hopened⟩
    · cases hok.symm.trans he
    · cases hok.symm.trans hu
      exact hopened
  · rintro ⟨ino, data, rfl, hopened⟩
    have hfile := hopened.find?
    cases hopened with
    | found hfile hnew hkeep =>
      refine openFile_kept ?_ hkeep hfile
      rw [prepare_apply, hfile, hnew]
      rfl
    | emptied hold hnew htruncate =>
      refine openFile_emptied ?_ htruncate ((write_eq_ok_iff h).mpr (.replaced hold)) hfile
      rw [prepare_apply, hold, hnew]
      rfl
    | @created p n hn hp hfree hcreate =>
      have hprepare : prepare (p ++ [n]) mode s = .ok () (s.add p n fun ino => .file ino []) := by
        rw [prepare_apply, hfree, hcreate]
        exact write_free hn hp hfree []
      cases htruncate : mode.truncate with
      | false => exact openFile_kept hprepare htruncate hfile
      | true => exact openFile_emptied hprepare htruncate (write_created h.keys hn hp) hfile

/-! ## Openings that change something -/

/-- Whether opening a file changes the store: the file is created, or it loses its content. -/
def Alters (mode : OpenMode) (s : Store) (l : Location) : Prop :=
  ((mode.create || mode.createNew) = true ∧ s.find? l = none ∧ s.Admits l) ∨
  (mode.createNew = false ∧ mode.truncate = true ∧
    ∃ ino data, s.find? l = some (.file ino data) ∧ data ≠ [])

/-- A file that is created or emptied can be opened. -/
theorem Alters.opened (h : Alters mode s l) : ∃ ino data t, Opened mode s l ino data t := by
  rcases h with ⟨hcreate, hfree, p, n, rfl, hn, hp⟩ | ⟨hnew, htruncate, ino, data, hfile, _⟩
  · exact ⟨_, _, _, .created hn hp hfree hcreate⟩
  · exact ⟨_, _, _, .emptied hfile hnew htruncate⟩

theorem Opened.ne_iff {ino : Nat} (hkeys : s.KeysNodup) (h : Opened mode s l ino data t) :
    t ≠ s ↔ Alters mode s l := by
  cases h with
  | found hfile hnew hkeep =>
    refine iff_of_false (fun hne => hne rfl) ?_
    rintro (⟨_, hfree, _⟩ | ⟨_, htruncate, _⟩)
    · cases hfile.symm.trans hfree
    · cases hkeep.symm.trans htruncate
  | @created p n hn hp hfree hcreate =>
    refine iff_of_true (fun heq => ?_) (.inl ⟨hcreate, hfree, _, _, rfl, hn, hp⟩)
    have hfind := congrArg (fun u : Store => u.find? (p ++ [n])) heq
    rw [Store.find?_add, if_pos rfl, hfree] at hfind
    cases hfind
  | @emptied _ ino old hfile hnew htruncate =>
    constructor
    · intro hne
      refine .inr ⟨hnew, htruncate, ino, old, hfile, ?_⟩
      rintro rfl
      exact hne (by rw [Store.put, Catalogue.put_same hkeys hfile])
    · rintro (⟨_, hfree, _⟩ | ⟨_, _, ino', data, hfile', hdata⟩) heq
      · cases hfile.symm.trans hfree
      · cases hfile.symm.trans hfile'
        have hfind := congrArg (fun u : Store => u.find? l) heq
        rw [Store.find?_put, if_pos rfl, hfile] at hfind
        cases hfind
        exact hdata rfl

end FileProvider.Memory
