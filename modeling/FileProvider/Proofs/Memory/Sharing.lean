import Mathlib.Logic.Function.Basic
import FileProvider.Proofs.Memory.WriteBack

/-!
# Several open files on one file

Files that were opened at the same location in append mode share nothing but that location: each has its
own copy and writes the whole of it back. So what the location holds after any turns is what the one that
saved last had in its copy, and the others matter only as far as they were saved before that one was
opened. `Shared` says this of every point of a run; a turn keeps it.
-/

set_option autoImplicit false

namespace FileProvider

/-- Writing at the end of a content appends. -/
theorem Bytes.splice_end (old new : Bytes) : Bytes.splice old old.length new = old ++ new := by
  simp [Bytes.splice]

namespace Memory

/-! ## One open file -/

section

variable {file : OpenFile} {s : Store}

/-- In append mode everything that is written goes behind the copy. -/
theorem OpenFile.written_append (h : file.mode.append = true) (bytes : Bytes) :
    file.written bytes
      = { file with
          data := file.data ++ bytes, position := file.data.length + bytes.length, dirty := true } := by
  unfold OpenFile.written
  simp only [h, ↓reduceIte, Bytes.splice_end]

theorem write_apply (h : file.mode.append = true) (bytes : Bytes) (s : Store) :
    ((backend.io (.write bytes)).outcome (file, s)).2 = (file.written bytes, s) := by
  change ((io (.write bytes)).outcome (file, s)).2 = _
  rw [Step.outcome, io]
  simp only [h, Bool.or_true, ↓reduceIte]

/-- The store in which the file with the given number at the location of an open file has its copy, if
there is anything to save. -/
def OpenFile.savedTo (file : OpenFile) (ino : Nat) (s : Store) : Store :=
  if file.dirty then s.put file.location (.file ino file.data) else s

@[simp] theorem nextIno_savedTo (file : OpenFile) (ino : Nat) (s : Store) :
    (file.savedTo ino s).nextIno = s.nextIno := by
  unfold OpenFile.savedTo
  split <;> rfl

theorem find?_savedTo_other {k : Location} (hk : k ≠ file.location) (ino : Nat) :
    (file.savedTo ino s).find? k = s.find? k := by
  unfold OpenFile.savedTo
  split
  · rw [Store.find?_put, if_neg hk]
  · rfl

section

variable {ino : Nat} {old : Bytes} (hfile : s.find? file.location = some (.file ino old))

include hfile

theorem find?_savedTo : (file.savedTo ino s).find? file.location
    = some (.file ino (if file.dirty then file.data else old)) := by
  unfold OpenFile.savedTo
  split
  · rw [Store.find?_put, if_pos rfl]
  · exact hfile

theorem wellFormed_savedTo (hs : s.WellFormed) : (file.savedTo ino s).WellFormed := by
  unfold OpenFile.savedTo
  split
  · exact hs.put_file hfile
  · exact hs

/-- Bringing an open file into a store in which its location holds a file. -/
theorem sync_apply (hs : s.WellFormed) :
    (backend.sync.outcome (file, s)).2 = ({ file with dirty := false }, file.savedTo ino s) := by
  change (sync.outcome (file, s)).2 = _
  have hwrite : write file.location file.data s = _ := (write_eq_ok_iff hs).mpr (.replaced hfile)
  unfold Step.outcome sync OpenFile.savedTo
  dsimp only
  by_cases hdirty : file.dirty = true
  · simp only [hdirty, ↓reduceIte, hwrite]
  · have hclean : file.dirty = false := by simpa using hdirty
    simp only [hclean, Bool.false_eq_true, ↓reduceIte]
    rw [← hclean]

end

end

/-! ## Turns -/

/-- What is done with an open file between its opening and its end. -/
inductive Use where
  | write (bytes : Bytes)
  | flush
  | close
deriving DecidableEq, Repr

/-- The open file, if it still is one, and the store after a use. -/
def Use.apply : Use → OpenFile × Store → Option OpenFile × Store
  | .write bytes, hs => ((backend.io (.write bytes)).outcome hs).2.map some id
  | .flush, hs => ((backend.io .flush).outcome hs).2.map some id
  | .close, hs => (none, backend.release hs.1 hs.2)

/-- A store and some files that may be open on it. -/
structure Desk (ι : Type) where
  store : Store
  files : ι → Option OpenFile

variable {ι : Type} [DecidableEq ι]

/-- The desk after one of its files was used. -/
def Desk.use (d : Desk ι) (i : ι) (file : OpenFile) (use : Use) : Desk ι :=
  ⟨(use.apply (file, d.store)).2, Function.update d.files i (use.apply (file, d.store)).1⟩

/-- The desks to which turns lead, the last turn first. A file that was closed has no turn any more. -/
inductive Turns (d : Desk ι) : List (ι × Use) → Desk ι → Prop where
  | start : Turns d [] d
  | turn {past : List (ι × Use)} {e : Desk ι} {i : ι} {file : OpenFile} (h : Turns d past e)
      (hfile : e.files i = some file) (use : Use) : Turns d ((i, use) :: past) (e.use i file use)

/-! ## What can be read off the turns -/

/-- Everything that was written to a file. -/
def written (i : ι) : List (ι × Use) → Bytes
  | [] => []
  | (j, .write bytes) :: past => if j = i then written i past ++ bytes else written i past
  | (_, _) :: past => written i past

/-- Everything that had been written to a file when it was flushed or closed last. -/
def saved (i : ι) : List (ι × Use) → Bytes
  | [] => []
  | (_, .write _) :: past => saved i past
  | (j, _) :: past => if j = i then written i past else saved i past

/-- Whether a file was written to after it was flushed or closed last; `dirty` says so of the start. -/
def unsaved (dirty : ι → Bool) (i : ι) : List (ι × Use) → Bool
  | [] => dirty i
  | (j, .write _) :: past => if j = i then true else unsaved dirty i past
  | (j, _) :: past => if j = i then false else unsaved dirty i past

/-- The file that was flushed or closed last while there was something to save. -/
def lastSaver (dirty : ι → Bool) : List (ι × Use) → Option ι
  | [] => none
  | (_, .write _) :: past => lastSaver dirty past
  | (i, _) :: past => if unsaved dirty i past then some i else lastSaver dirty past

section

variable {dirty : ι → Bool} {i : ι} {past : List (ι × Use)}

/-- Where nothing is unsaved, everything that was written is saved. -/
theorem saved_eq_written (h : unsaved dirty i past = false) : saved i past = written i past := by
  induction past with
  | nil => rfl
  | cons turn past ih =>
    obtain ⟨j, use⟩ := turn
    by_cases hj : j = i
    · cases use <;> simp_all [saved, written, unsaved]
    · cases use <;> simp_all [saved, written, unsaved]

theorem saved_prefix_written : saved i past <+: written i past := by
  induction past with
  | nil => exact List.prefix_refl _
  | cons turn past ih =>
    obtain ⟨j, use⟩ := turn
    cases use with
    | write bytes =>
      by_cases hj : j = i
      · simpa [saved, written, hj] using ih.trans (List.prefix_append _ bytes)
      · simpa [saved, written, hj] using ih
    | flush | close =>
      by_cases hj : j = i
      · simp [saved, written, hj]
      · simpa [saved, written, hj] using ih

theorem lastSaver_cons (dirty : ι → Bool) (j : ι) (use : Use) (past : List (ι × Use)) :
    lastSaver dirty ((j, use) :: past) = some j ∨
    lastSaver dirty ((j, use) :: past) = lastSaver dirty past := by
  cases use with
  | write bytes => exact .inr rfl
  | flush | close => cases hunsaved : unsaved dirty j past <;> simp [lastSaver, hunsaved]

/-- Before a turn that leaves it so that nobody saved anything, nobody had; and if the turn could have
saved something, there was nothing to save. -/
theorem lastSaver_cons_eq_none {j : ι} {use : Use} (h : lastSaver dirty ((j, use) :: past) = none) :
    lastSaver dirty past = none ∧ (use = .flush ∨ use = .close → unsaved dirty j past = false) := by
  cases use with
  | write bytes => exact ⟨h, by simp⟩
  | flush | close =>
    cases hunsaved : unsaved dirty j past with
    | true => simp [lastSaver, hunsaved] at h
    | false => exact ⟨by simpa [lastSaver, hunsaved] using h, fun _ => rfl⟩

/-- If nobody saved anything, a file at which nothing is unsaved was not written to. -/
theorem written_eq_nil (h : lastSaver dirty past = none) (hi : unsaved dirty i past = false) :
    dirty i = false ∧ written i past = [] := by
  induction past with
  | nil => exact ⟨hi, rfl⟩
  | cons turn past ih =>
    obtain ⟨j, use⟩ := turn
    obtain ⟨hnone, hsaved⟩ := lastSaver_cons_eq_none h
    by_cases hj : j = i
    · subst hj
      cases use with
      | write bytes => simp [unsaved] at hi
      | flush => simpa [written] using ih hnone (hsaved (.inl rfl))
      | close => simpa [written] using ih hnone (hsaved (.inr rfl))
    · have hrest : unsaved dirty i past = false := by cases use <;> simpa [unsaved, hj] using hi
      cases use <;> simpa [written, hj] using ih hnone hrest

theorem saved_eq_nil (h : lastSaver dirty past = none) : saved i past = [] := by
  induction past with
  | nil => rfl
  | cons turn past ih =>
    obtain ⟨j, use⟩ := turn
    obtain ⟨hnone, hsaved⟩ := lastSaver_cons_eq_none h
    by_cases hj : j = i
    · subst hj
      cases use with
      | write bytes => exact ih hnone
      | flush => simpa [saved] using (written_eq_nil hnone (hsaved (.inl rfl))).2
      | close => simpa [saved] using (written_eq_nil hnone (hsaved (.inr rfl))).2
    · cases use <;> simpa [saved, hj] using ih hnone

end

/-! ## What the turns lead to -/

namespace Desk

/-- The copy of a file. -/
def data (d : Desk ι) (i : ι) : Bytes := ((d.files i).map OpenFile.data).getD []

/-- Whether the copy of a file holds anything that is not in the store. -/
def dirty (d : Desk ι) (i : ι) : Bool := (d.files i).any OpenFile.dirty

/-- The content of the location after turns: the copy of the one that saved last, as it was then. -/
def contentAfter (d : Desk ι) (content : Bytes) (past : List (ι × Use)) : Bytes :=
  match lastSaver d.dirty past with
  | none => content
  | some i => d.data i ++ saved i past

variable {d : Desk ι} {content : Bytes} {past : List (ι × Use)} {i : ι} {use : Use}

/-- Whoever saves something makes the whole of its copy the content. -/
theorem contentAfter_save (huse : use = .flush ∨ use = .close) (h : unsaved d.dirty i past = true) :
    d.contentAfter content ((i, use) :: past) = d.data i ++ written i past := by
  rcases huse with rfl | rfl <;> simp [contentAfter, lastSaver, saved, h]

theorem contentAfter_idle (huse : use = .flush ∨ use = .close) (h : unsaved d.dirty i past = false) :
    d.contentAfter content ((i, use) :: past) = d.contentAfter content past := by
  have hlast : lastSaver d.dirty ((i, use) :: past) = lastSaver d.dirty past := by
    rcases huse with rfl | rfl <;> simp [lastSaver, h]
  have hsaved : ∀ k, saved k ((i, use) :: past) = saved k past := by
    intro k
    by_cases hik : i = k
    · subst hik
      rw [saved_eq_written h]
      rcases huse with rfl | rfl <;> simp [saved]
    · rcases huse with rfl | rfl <;> simp [saved, hik]
  simp only [contentAfter, hlast, hsaved]

end Desk

/-- What is known of a file that is still open after turns: its copy is what it was at first, and
everything that was written to the file behind it. -/
structure Copy (d : Desk ι) (l : Location) (past : List (ι × Use)) (i : ι) (file : OpenFile) : Prop where
  location : file.location = l
  append : file.mode.append = true
  first : (d.files i).isSome = true
  data : file.data = d.data i ++ written i past
  dirty : file.dirty = unsaved d.dirty i past

/-- What is known after turns of files that were all opened at one location, in append mode. -/
structure Shared (d : Desk ι) (l : Location) (ino : Nat) (content : Bytes) (past : List (ι × Use))
    (e : Desk ι) : Prop where
  store : e.store.WellFormed
  file : e.store.find? l = some (.file ino (d.contentAfter content past))
  /-- Nothing but the content of the location changed. -/
  other : ∀ k, k ≠ l → e.store.find? k = d.store.find? k
  next : e.store.nextIno = d.store.nextIno
  copy : ∀ i file, e.files i = some file → Copy d l past i file
  /-- A file that was closed has nothing unsaved. -/
  closed : ∀ i, e.files i = none → unsaved d.dirty i past = false
  /-- Only a file that was open at first can have saved anything. -/
  saver : ∀ i, lastSaver d.dirty past = some i → (d.files i).isSome = true

variable {d e : Desk ι} {l : Location} {ino : Nat} {content : Bytes} {past : List (ι × Use)} {i j : ι}
  {file : OpenFile} {use : Use}

/-- A turn of another file leaves a copy as it is. -/
theorem Copy.elsewhere (h : Copy d l past j file) (hij : i ≠ j) : Copy d l ((i, use) :: past) j file := by
  refine ⟨h.location, h.append, h.first, ?_, ?_⟩
  · cases use <;> simpa [written, hij] using h.data
  · cases use <;> simpa [unsaved, hij] using h.dirty

theorem Shared.start (hs : d.store.WellFormed) (hfile : d.store.find? l = some (.file ino content))
    (hopen : ∀ i file, d.files i = some file → file.location = l ∧ file.mode.append = true) :
    Shared d l ino content [] d where
  store := hs
  file := hfile
  other _ _ := rfl
  next := rfl
  copy i file hi := by
    obtain ⟨hlocation, happend⟩ := hopen i file hi
    refine ⟨hlocation, happend, by rw [hi]; rfl, ?_, ?_⟩
    · simp [Desk.data, hi, written]
    · simp [Desk.dirty, hi, unsaved]
  closed i hi := by simp [unsaved, Desk.dirty, hi]
  saver i hi := nomatch hi

/-- A turn is described by what it does to the content and to the file that has it. -/
theorem Shared.turn {file' : Option OpenFile} {t : Store} (h : Shared d l ino content past e)
    (hi : e.files i = some file) (happly : use.apply (file, e.store) = (file', t)) (hstore : t.WellFormed)
    (hfile : t.find? l = some (.file ino (d.contentAfter content ((i, use) :: past))))
    (hother : ∀ k, k ≠ l → t.find? k = e.store.find? k) (hnext : t.nextIno = e.store.nextIno)
    (hcopy : ∀ f, file' = some f → Copy d l ((i, use) :: past) i f)
    (hclosed : file' = none → unsaved d.dirty i ((i, use) :: past) = false) :
    Shared d l ino content ((i, use) :: past) (e.use i file use) := by
  have hdesk : e.use i file use = ⟨t, Function.update e.files i file'⟩ := by rw [Desk.use, happly]
  rw [hdesk]
  refine ⟨hstore, hfile, fun k hk => (hother k hk).trans (h.other k hk), hnext.trans h.next, ?_, ?_, ?_⟩
  · intro j f hj
    by_cases hij : i = j
    · subst hij
      exact hcopy f ((Function.update_self i file' e.files).symm.trans hj)
    · have hfiles := Function.update_of_ne (Ne.symm hij) file' e.files
      exact (h.copy j f (hfiles.symm.trans hj)).elsewhere hij
  · intro j hj
    by_cases hij : i = j
    · subst hij
      exact hclosed ((Function.update_self i file' e.files).symm.trans hj)
    · have hfiles := Function.update_of_ne (Ne.symm hij) file' e.files
      have hunsaved := h.closed j (hfiles.symm.trans hj)
      cases use <;> simpa [unsaved, hij] using hunsaved
  · intro j hj
    rcases lastSaver_cons d.dirty i use past with hlast | hlast
    · obtain rfl := Option.some.inj (hlast.symm.trans hj)
      exact (h.copy _ file hi).first
    · exact h.saver j (hlast.symm.trans hj)

/-- Writing to a file changes its copy only. -/
theorem Shared.write (h : Shared d l ino content past e) (hi : e.files i = some file) (bytes : Bytes) :
    Shared d l ino content ((i, .write bytes) :: past) (e.use i file (.write bytes)) := by
  have hcopy := h.copy i file hi
  have happly : (Use.write bytes).apply (file, e.store) = (some (file.written bytes), e.store) :=
    congrArg (Prod.map some id) (write_apply hcopy.append bytes e.store)
  refine h.turn hi happly h.store h.file (fun _ _ => rfl) rfl ?_ nofun
  rintro _ ⟨⟩
  rw [OpenFile.written_append hcopy.append]
  refine ⟨hcopy.location, hcopy.append, hcopy.first, ?_, ?_⟩
  · simp [written, hcopy.data]
  · simp [unsaved]

/-- Flushing or closing a file makes its copy the content, if there is anything to save. -/
theorem Shared.save (h : Shared d l ino content past e) (hi : e.files i = some file)
    (huse : use = .flush ∨ use = .close) :
    Shared d l ino content ((i, use) :: past) (e.use i file use) := by
  have hcopy := h.copy i file hi
  have hfile : e.store.find? file.location = some (.file ino (d.contentAfter content past)) := by
    rw [hcopy.location, h.file]
  have hsync := sync_apply hfile h.store
  have hstore := wellFormed_savedTo hfile h.store
  have hother : ∀ k, k ≠ l → (file.savedTo ino e.store).find? k = e.store.find? k := fun k hk =>
    find?_savedTo_other (hcopy.location ▸ hk) ino
  -- What is saved is the whole copy; otherwise everything that was written is saved already.
  have hcontent : (file.savedTo ino e.store).find? l
      = some (.file ino (d.contentAfter content ((i, use) :: past))) := by
    rw [← hcopy.location, find?_savedTo hfile, hcopy.dirty]
    cases hunsaved : unsaved d.dirty i past with
    | true => rw [if_pos rfl, Desk.contentAfter_save huse hunsaved, hcopy.data]
    | false => rw [if_neg Bool.false_ne_true, Desk.contentAfter_idle huse hunsaved]
  have hsaved : unsaved d.dirty i ((i, use) :: past) = false := by
    rcases huse with rfl | rfl <;> simp [unsaved]
  have hwritten : written i ((i, use) :: past) = written i past := by
    rcases huse with rfl | rfl <;> rfl
  rcases huse with rfl | rfl
  · have happly : Use.flush.apply (file, e.store)
        = (some { file with dirty := false }, file.savedTo ino e.store) := by
      rw [Use.apply, flush_apply, hsync]
      rfl
    refine h.turn hi happly hstore hcontent hother (nextIno_savedTo _ _ _) ?_ nofun
    rintro _ ⟨⟩
    exact ⟨hcopy.location, hcopy.append, hcopy.first, hwritten ▸ hcopy.data, hsaved.symm⟩
  · have hreleased : backend.release file e.store = file.savedTo ino e.store := congrArg Prod.snd hsync
    have happly : Use.close.apply (file, e.store) = (none, file.savedTo ino e.store) :=
      Prod.ext rfl hreleased
    exact h.turn hi happly hstore hcontent hother (nextIno_savedTo _ _ _) nofun fun _ => hsaved

/-- Every point of a run is as `Shared` says. -/
theorem Turns.shared (h : Turns d past e) (hs : d.store.WellFormed)
    (hfile : d.store.find? l = some (.file ino content))
    (hopen : ∀ i file, d.files i = some file → file.location = l ∧ file.mode.append = true) :
    Shared d l ino content past e := by
  induction h with
  | start => exact .start hs hfile hopen
  | turn _ hi use ih =>
    cases use with
    | write bytes => exact ih.write hi bytes
    | flush => exact ih.save hi (.inl rfl)
    | close => exact ih.save hi (.inr rfl)

end Memory

end FileProvider
