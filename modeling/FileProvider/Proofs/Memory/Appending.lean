import FileProvider.Proofs.Memory.Sharing

/-!
# Two files that append

Two files are opened at one location in append mode, one after the other, and used in turns until both are
closed, while nobody else touches the location. In the end it holds the copy of the one that saved last.
Nothing is lost only if that copy has everything that the other one wrote: the file that was opened first
may save last if nothing was written to the second one, and the second if all that was ever written to the
first had been saved before the second was opened.
-/

set_option autoImplicit false

namespace FileProvider.Memory

/-- Whether a list holds the elements of two others and nothing else, each in its own order. -/
inductive Interleaving {α : Type} : List α → List α → List α → Prop where
  | nil : Interleaving [] [] []
  | left {x : α} {l r m : List α} (h : Interleaving l r m) : Interleaving (x :: l) r (x :: m)
  | right {x : α} {l r m : List α} (h : Interleaving l r m) : Interleaving l (x :: r) (x :: m)

namespace Interleaving

variable {α : Type} {l r m kept rest : List α}

theorem length_eq (h : Interleaving l r m) : m.length = l.length + r.length := by
  induction h with
  | nil => rfl
  | left _ ih =>
    simp only [List.length_cons, ih]
    omega
  | right _ ih =>
    simp only [List.length_cons, ih]
    omega

theorem append (l r : List α) : Interleaving l r (l ++ r) := by
  induction l with
  | cons x l ih => exact .left ih
  | nil =>
    induction r with
    | nil => exact .nil
    | cons x r ih => exact .right ih

/-- One of two lists has everything only if the other is empty. -/
theorem left_iff : Interleaving l r l ↔ r = [] := by
  constructor
  · intro h
    have hlength := h.length_eq
    exact List.eq_nil_of_length_eq_zero (by omega)
  · rintro rfl
    simpa using append l []

/-- The beginning of one list with the other one behind it has everything only if it is the whole list. -/
theorem append_iff (hkept : kept <+: l) : Interleaving l r (kept ++ r) ↔ l = kept := by
  constructor
  · intro h
    have hlength := h.length_eq
    rw [List.length_append] at hlength
    exact (hkept.eq_of_length (by omega)).symm
  · rintro rfl
    exact append l r

end Interleaving

/-! ## One file alone -/

/-- One file that is open on a store. -/
def Desk.single (s : Store) (file : OpenFile) : Desk Unit := ⟨s, fun _ => some file⟩

/-- As long as one file has all the turns, its location holds what was there and what was saved. -/
theorem Desk.single_contentAfter (s : Store) (file : OpenFile) (past : List (Unit × Use)) :
    (Desk.single s file).contentAfter file.data past = file.data ++ saved () past := by
  unfold contentAfter
  cases hlast : lastSaver (Desk.single s file).dirty past with
  | none => simp [saved_eq_nil hlast]
  | some i => rfl

/-! ## Two files -/

/-- Which of two files. -/
inductive Rank where
  | first
  | second
deriving DecidableEq, Repr

/-- Two files that may be open on a store. -/
def Desk.pair (s : Store) (first second : Option OpenFile) : Desk Rank :=
  ⟨s, fun
    | .first => first
    | .second => second⟩

/-- A file was opened at a location of a well-formed store. -/
theorem opened_of_outcome {path : Path} {mode : OpenMode} {s t : Store} {file : OpenFile}
    (hs : s.WellFormed) (h : (backend.call (.openFile path mode)).outcome s = (.ok file, t)) :
    t.WellFormed ∧ file.location = path.location ∧ file.mode = mode ∧ file.dirty = false ∧
      ∃ ino, Opened mode s path.location ino file.data t := by
  have hstore := (keeps_call (.openFile path mode)).step_outcome hs
  rw [h] at hstore
  obtain ⟨ino, data, rfl, hopened⟩ := (openFile_eq_ok_iff hs).mp (Step.eq_ok_of_outcome h)
  exact ⟨hstore, rfl, rfl, rfl, ino, hopened⟩

/-- A file that is there is opened with its content, or emptied. -/
theorem Opened.of_file {mode : OpenMode} {s t : Store} {l : Location} {ino ino' : Nat}
    {content data : Bytes} (h : Opened mode s l ino' data t)
    (hfile : s.find? l = some (.file ino content)) :
    data = if mode.truncate then [] else content := by
  cases h with
  | found hfile' hnew hkeep =>
    cases hfile.symm.trans hfile'
    simp [hkeep]
  | emptied _ _ htruncate => simp [htruncate]
  | created _ _ hfree => cases hfile.symm.trans hfree

/-- Two files that append: the first one is opened in a session that can come about and may have turns
alone, then the second one is opened at the same location, then both have turns until they are closed. -/
structure Appending where
  session : Session
  path : Path
  path' : Path
  mode : OpenMode
  mode' : OpenMode
  first : OpenFile
  second : OpenFile
  /-- The store after the first opening. -/
  store : Store
  alone : List (Unit × Use)
  /-- The store before the second opening, and the first file unless it is closed already. -/
  between : Desk Unit
  /-- The store after the second opening. -/
  store' : Store
  together : List (Rank × Use)
  final : Desk Rank
  reachable : session.Reachable
  same : path'.location = path.location
  append : mode.append = true
  append' : mode'.append = true
  opening : (backend.call (.openFile path mode)).outcome session.store = (.ok first, store)
  turns : Turns (.single store first) alone between
  opening' : (backend.call (.openFile path' mode')).outcome between.store = (.ok second, store')
  turns' : Turns (.pair store' (between.files ()) second) together final
  closed : ∀ i, final.files i = none

namespace Appending

variable (r : Appending)

/-- Everything that was written to the first file. -/
def byFirst : Bytes := written () r.alone ++ written .first r.together

/-- Everything that was written to the second file. -/
def bySecond : Bytes := written .second r.together

/-- What was written to the first file and saved before the second one was opened. -/
def kept : Bytes := saved () r.alone

/-- The two files, when the second one has been opened. -/
def desk : Desk Rank := .pair r.store' (r.between.files ()) r.second

/-- The file that saved last, if anything was saved after the second one was opened. -/
def saver : Option Rank := lastSaver r.desk.dirty r.together

/-- What the location holds in the end. -/
def content : Bytes :=
  match r.saver with
  | none => r.second.data
  | some .first => r.first.data ++ r.byFirst
  | some .second => r.second.data ++ r.bySecond

/-- Whether the file that saved last had everything in its copy that was written to the other one. -/
def Whole : Prop :=
  match r.saver with
  | none => True
  | some .first => r.bySecond = []
  | some .second => r.byFirst = r.kept

/-- The turns of the first file alone. -/
theorem shared_alone : ∃ ino,
    Shared (.single r.store r.first) r.path.location ino r.first.data r.alone r.between := by
  obtain ⟨hstore, hlocation, hmode, _, ino, hopened⟩ :=
    opened_of_outcome r.reachable.sound.store r.opening
  refine ⟨ino, r.turns.shared hstore hopened.find? ?_⟩
  rintro i _ ⟨⟩
  exact ⟨hlocation, hmode ▸ r.append⟩

/-- The second file is opened with what the first one has saved, unless it empties the file. -/
theorem second_data :
    r.second.data = if r.mode'.truncate then [] else r.first.data ++ r.kept := by
  obtain ⟨ino, halone⟩ := r.shared_alone
  obtain ⟨_, _, _, _, ino', hopened⟩ := opened_of_outcome halone.store r.opening'
  rw [r.same] at hopened
  have hfile := halone.file
  rw [Desk.single_contentAfter] at hfile
  exact hopened.of_file hfile

/-- The turns of both files. -/
theorem shared_together : ∃ ino,
    Shared r.desk r.path.location ino r.second.data r.together r.final := by
  obtain ⟨_, halone⟩ := r.shared_alone
  obtain ⟨hstore, hlocation, hmode, _, ino, hopened⟩ := opened_of_outcome halone.store r.opening'
  rw [r.same] at hlocation hopened
  refine ⟨ino, r.turns'.shared hstore hopened.find? ?_⟩
  rintro (_ | _) file hfile
  · exact ⟨(halone.copy () file hfile).location, (halone.copy () file hfile).append⟩
  · cases hfile
    exact ⟨hlocation, hmode ▸ r.append'⟩

/-- In the end nothing is unsaved. -/
theorem unsaved_eq_false (i : Rank) : unsaved r.desk.dirty i r.together = false := by
  obtain ⟨_, htogether⟩ := r.shared_together
  exact htogether.closed i (r.closed i)

/-- The copy of the file that saved last is the content. -/
theorem contentAfter_eq : r.desk.contentAfter r.second.data r.together = r.content := by
  have hwritten : ∀ i, saved i r.together = written i r.together :=
    fun i => saved_eq_written (r.unsaved_eq_false i)
  obtain ⟨_, halone⟩ := r.shared_alone
  obtain ⟨_, htogether⟩ := r.shared_together
  unfold Desk.contentAfter content saver
  cases hlast : lastSaver r.desk.dirty r.together with
  | none => rfl
  | some i =>
    cases i with
    | second => exact congrArg _ (hwritten .second)
    | first =>
      obtain ⟨file, hfile⟩ := Option.isSome_iff_exists.mp (htogether.saver .first hlast)
      have hdata : r.desk.data .first = r.first.data ++ written () r.alone := by
        rw [Desk.data, hfile]
        exact (halone.copy () file hfile).data
      simp only [hdata, hwritten, byFirst, List.append_assoc]

/-- If nothing was saved after the second file was opened, nothing was left to be saved. -/
theorem of_nothing_saved (h : r.saver = none) : r.byFirst = r.kept ∧ r.bySecond = [] := by
  obtain ⟨hclean, hfirst⟩ := written_eq_nil h (r.unsaved_eq_false .first)
  refine ⟨?_, (written_eq_nil h (r.unsaved_eq_false .second)).2⟩
  obtain ⟨_, halone⟩ := r.shared_alone
  have hunsaved : unsaved (Desk.single r.store r.first).dirty () r.alone = false := by
    cases hfile : r.between.files () with
    | none => exact halone.closed () hfile
    | some file =>
      rw [← (halone.copy () file hfile).dirty]
      have hdirty : (r.between.files ()).any OpenFile.dirty = false := hclean
      rwa [hfile] at hdirty
  rw [byFirst, hfirst, List.append_nil, kept, saved_eq_written hunsaved]

/-- Nothing is lost and nothing is there twice exactly if the file that saved last had everything. -/
theorem whole_iff (hkeep : r.mode'.truncate = false) :
    (∃ m, Interleaving r.byFirst r.bySecond m ∧ r.content = r.first.data ++ m) ↔ r.Whole := by
  have hsecond : r.second.data = r.first.data ++ r.kept := by rw [r.second_data, if_neg (by simp [hkeep])]
  have hcontent : ∀ n, (∃ m, Interleaving r.byFirst r.bySecond m ∧ r.first.data ++ n = r.first.data ++ m)
      ↔ Interleaving r.byFirst r.bySecond n := by
    intro n
    constructor
    · rintro ⟨m, hm, heq⟩
      rwa [List.append_cancel_left heq]
    · exact fun hn => ⟨n, hn, rfl⟩
  unfold content Whole
  cases hsaver : r.saver with
  | none =>
    obtain ⟨hfirst, hnone⟩ := r.of_nothing_saved hsaver
    dsimp only
    rw [hsecond, hcontent, iff_true, hfirst, hnone]
    simpa using Interleaving.append r.kept []
  | some i =>
    cases i with
    | first =>
      dsimp only
      rw [hcontent, Interleaving.left_iff]
    | second =>
      dsimp only
      rw [hsecond, List.append_assoc, hcontent, Interleaving.append_iff]
      exact saved_prefix_written.trans (List.prefix_append _ _)

/-- What two files that append leave behind: the location holds the copy of the one that saved last, with
all that was written to that one, and nothing else is changed. If the second one did not empty the file,
the location holds what was there at first and everything that was written to either file, each in its own
order, nothing lost and nothing twice, exactly if the copy that was saved last had all that was written to
the other file. -/
theorem left_behind :
    (∃ ino, r.final.store.find? r.path.location = some (.file ino r.content)) ∧
    (∀ k, k ≠ r.path.location → r.final.store.find? k = r.store'.find? k) ∧
    (r.second.data = if r.mode'.truncate then [] else r.first.data ++ r.kept) ∧
    (r.mode'.truncate = false →
      ((∃ m, Interleaving r.byFirst r.bySecond m ∧ r.content = r.first.data ++ m) ↔ r.Whole)) := by
  obtain ⟨ino, htogether⟩ := r.shared_together
  refine ⟨⟨ino, ?_⟩, htogether.other, r.second_data, r.whole_iff⟩
  rw [htogether.file, r.contentAfter_eq]

/-- A run in which one byte is written to each of two files before both are closed. -/
def oneByteEach : Appending :=
  let mode : OpenMode := { write := true, append := true }
  let start : Store := ⟨[([], .dir 1 ["f"]), (["f"], .file 2 [97, 98])], 3⟩
  { session := ⟨start, []⟩
    path := ⟨"/f"⟩
    path' := ⟨"/f"⟩
    mode := mode
    mode' := mode
    first := ⟨["f"], [97, 98], 0, mode, false⟩
    second := ⟨["f"], [97, 98], 0, mode, false⟩
    store := start
    alone := []
    between := .single start ⟨["f"], [97, 98], 0, mode, false⟩
    store' := start
    together := [(.second, .close), (.first, .close), (.second, .write [120]), (.first, .write [120])]
    final := _
    reachable := .step .start (.call (.write ⟨"/f"⟩ [97, 98]) .empty [])
    same := rfl
    append := rfl
    append' := rfl
    opening := by decide +kernel
    turns := .start
    opening' := by decide +kernel
    turns' := .turn (.turn (.turn (.turn .start rfl _) rfl _) rfl _) rfl _
    closed := by rintro (_ | _) <;> rfl }

/-- One of the two bytes is lost. -/
theorem left_behind_lost :
    oneByteEach.mode'.truncate = false ∧ oneByteEach.first.data = [97, 98] ∧
      oneByteEach.byFirst = [120] ∧ oneByteEach.bySecond = [120] ∧
      oneByteEach.content = [97, 98, 120] ∧
      ¬ ∃ m, Interleaving oneByteEach.byFirst oneByteEach.bySecond m ∧
        oneByteEach.content = oneByteEach.first.data ++ m := by
  have hsaver : oneByteEach.saver = some .second := by decide +kernel
  refine ⟨rfl, rfl, rfl, rfl, by decide +kernel, fun hwhole => ?_⟩
  have hlast := (oneByteEach.left_behind.2.2.2 rfl).mp hwhole
  rw [Whole, hsaver] at hlast
  cases hlast

end Appending

end FileProvider.Memory
