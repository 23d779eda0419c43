import FileProvider.Proofs.Memory.Numbers

/-!
# Following an open file

An open file lives on while anything may happen to the store, so what it does when it is flushed or let
go at last is a statement about whole runs. `Held` singles out one open file and says how it got where it
is. What carries through the runs is that the file keeps the location at which it was opened, and that its
inode number stays a file's number; the store itself may lose that file, or have another one there.
-/

set_option autoImplicit false

namespace FileProvider.Memory

namespace Session

variable {a b : Session} {path : Path} {ino : Nat} {file : OpenFile}

/-- A session seen from one of its open files: the file was opened at a path in a session that can come
about, where it then had a certain inode number, and has been open since. The session is that of the store
and the other open files. -/
inductive Held (path : Path) (ino : Nat) : OpenFile → Session → Prop where
  | opened {a : Session} {t : Store} {mode : OpenMode} {file : OpenFile} {data : Bytes}
      (ha : a.Reachable) (hopen : (backend.call (.openFile path mode)).outcome a.store = (.ok file, t))
      (hino : t.find? path.location = some (.file ino data)) : Held path ino file ⟨t, a.files⟩
  /-- Anything else happens in the session. -/
  | next {file : OpenFile} {a b : Session} (h : Held path ino file a) (hnext : Next a b) :
      Held path ino file b
  /-- The file itself is read, written, sought in or flushed. -/
  | io {α : Type} (op : Io α) {file : OpenFile} {s : Store} {files : List OpenFile}
      (h : Held path ino file ⟨s, files⟩) :
      Held path ino ((backend.io op).outcome (file, s)).2.1
        ⟨((backend.io op).outcome (file, s)).2.2, files⟩
  /-- The file itself is brought into the store. -/
  | sync {file : OpenFile} {s : Store} {files : List OpenFile} (h : Held path ino file ⟨s, files⟩) :
      Held path ino (backend.sync.outcome (file, s)).2.1
        ⟨(backend.sync.outcome (file, s)).2.2, files⟩

/-! ## Every open file is followed -/

/-- Two places in a list are the same, or one comes before the other. -/
theorem places {α : Type} {x y : α} {before after before' after' : List α}
    (h : before ++ x :: after = before' ++ y :: after') :
    (before = before' ∧ x = y ∧ after = after') ∨
    (∃ mid, before' = before ++ x :: mid ∧ after = mid ++ y :: after') ∨
    ∃ mid, before = before' ++ y :: mid ∧ after' = mid ++ x :: after := by
  rcases List.append_eq_append_iff.mp h with ⟨mid, hbefore, hrest⟩ | ⟨mid, hbefore, hrest⟩
  · cases mid with
    | nil =>
      cases hrest
      exact .inl ⟨by rw [hbefore, List.append_nil], rfl, rfl⟩
    | cons z mid =>
      cases hrest
      exact .inr (.inl ⟨mid, hbefore, rfl⟩)
  · cases mid with
    | nil =>
      cases hrest
      exact .inl ⟨by rw [hbefore, List.append_nil], rfl, rfl⟩
    | cons z mid =>
      cases hrest
      exact .inr (.inr ⟨mid, hbefore, rfl⟩)

/-- What happens to one open file happens in the session of the others. -/
theorem Next.elsewhere {s t : Store} {file other other' : OpenFile}
    {before after before' after' : List OpenFile}
    (hnext : ∀ before after, Next ⟨s, before ++ other :: after⟩ ⟨t, before ++ other' :: after⟩)
    (hheld : ∀ before' after', before ++ other :: after = before' ++ file :: after' →
      ∃ path ino, Held path ino file ⟨s, before' ++ after'⟩)
    (hplace : before ++ other' :: after = before' ++ file :: after')
    (hsame : before = before' → other' = file → after = after' →
      ∃ path ino, Held path ino file ⟨t, before' ++ after'⟩) :
    ∃ path ino, Held path ino file ⟨t, before' ++ after'⟩ := by
  rcases places hplace with ⟨h, h', h''⟩ | ⟨mid, rfl, rfl⟩ | ⟨mid, rfl, rfl⟩
  · exact hsame h h' h''
  · obtain ⟨path, ino, h⟩ := hheld (before ++ other :: mid) after' (by simp)
    refine ⟨path, ino, h.next ?_⟩
    simpa using hnext before (mid ++ after')
  · obtain ⟨path, ino, h⟩ := hheld before' (mid ++ other :: after) (by simp)
    refine ⟨path, ino, h.next ?_⟩
    simpa using hnext (before' ++ mid) after

/-- Every open file of a session that can come about was opened at some path, and is followed. -/
theorem Reachable.held {a : Session} (ha : a.Reachable) {before after : List OpenFile}
    (hfiles : a.files = before ++ file :: after) :
    ∃ path ino, Held path ino file ⟨a.store, before ++ after⟩ := by
  induction ha generalizing file before after with
  | start => exact absurd hfiles.symm (List.append_ne_nil_of_right_ne_nil before (List.cons_ne_nil _ _))
  | @step a b ha hnext ih =>
    cases hnext with
    | call c s files =>
      obtain ⟨path, ino, h⟩ := ih hfiles
      exact ⟨path, ino, h.next (.call c s _)⟩
    | job depth j s t files r hrun =>
      obtain ⟨path, ino, h⟩ := ih hfiles
      exact ⟨path, ino, h.next (.job depth j s t _ r hrun)⟩
    | opened path mode s t new files hopen =>
      cases before with
      | nil =>
        cases hfiles
        have hopened := (openFile_eq_ok_iff ha.sound.store).mp (Step.eq_ok_of_outcome hopen)
        obtain ⟨ino, data, _, hfound⟩ := hopened
        exact ⟨path, ino, .opened ha hopen hfound.find?⟩
      | cons first before =>
        cases hfiles
        obtain ⟨path', ino, h⟩ := ih rfl
        exact ⟨path', ino, h.next (.opened path mode s t _ _ hopen)⟩
    | io op s other before' after' =>
      refine Next.elsewhere (fun _ _ => .io op s other _ _) (fun _ _ h => ih h) hfiles ?_
      rintro rfl rfl rfl
      obtain ⟨path, ino, h⟩ := ih rfl
      exact ⟨path, ino, h.io op⟩
    | sync s other before' after' =>
      refine Next.elsewhere (fun _ _ => .sync s other _ _) (fun _ _ h => ih h) hfiles ?_
      rintro rfl rfl rfl
      obtain ⟨path, ino, h⟩ := ih rfl
      exact ⟨path, ino, h.sync⟩
    | close s other before' after' =>
      rcases List.append_eq_append_iff.mp hfiles with ⟨mid, rfl, rfl⟩ | ⟨mid, rfl, hrest⟩
      · obtain ⟨path, ino, h⟩ := @ih file (before' ++ other :: mid) after (by simp)
        refine ⟨path, ino, h.next ?_⟩
        simpa using Next.close s other before' (mid ++ after)
      · cases mid with
        | nil =>
          cases hrest
          obtain ⟨path, ino, h⟩ := @ih file (before ++ [other]) after (by simp)
          refine ⟨path, ino, h.next ?_⟩
          simpa using Next.close s other before after
        | cons first mid =>
          cases hrest
          obtain ⟨path, ino, h⟩ := @ih file before (mid ++ other :: after') (by simp)
          refine ⟨path, ino, h.next ?_⟩
          simpa using Next.close s other (before ++ mid) after'

/-! ## What an open file keeps -/

/-- The location at which a file was opened stays with it, and the number that was the file's then is a
file's number still. -/
structure Followed (path : Path) (ino : Nat) (file : OpenFile) (a : Session) : Prop where
  location : file.location = path.location
  sound : a.Sound
  number : a.store.NumbersFile ino

/-- What happens to the file itself leaves the others as they are. -/
theorem Followed.after {s t : Store} {files : List OpenFile} {file' : OpenFile}
    (h : Followed path ino file ⟨s, files⟩) (hlocation : file'.location = file.location)
    (hserves : Serves (file', t)) (hdescends : s.Descends t) :
    Followed path ino file' ⟨t, files⟩ :=
  ⟨hlocation.trans h.location, ⟨hserves.2, h.sound.files⟩, hdescends.numbersFile h.number⟩

theorem Followed.serves {s : Store} {files : List OpenFile} (h : Followed path ino file ⟨s, files⟩) :
    Serves (file, s) := ⟨h.location ▸ path.location_descends, h.sound.store⟩

/-- An open file is followed through everything that may happen. -/
theorem Held.followed (h : Held path ino file a) : Followed path ino file a := by
  induction h with
  | @opened a t mode file data ha hopen hino =>
    have hsound := ha.sound.next (.opened path mode a.store t file a.files hopen)
    refine ⟨location_of_openFile ha.sound.store hopen, ⟨hsound.store, fun other hother => ?_⟩, ?_⟩
    · exact hsound.files other (List.mem_cons_of_mem _ hother)
    · exact hsound.store.numbersFile hino
  | next _ hnext ih =>
    exact ⟨ih.location, ih.sound.next hnext, (hnext.descends ih.sound).numbersFile ih.number⟩
  | @io _ op file s files _ ih =>
    exact ih.after (location_io op file s) ((keeps_io op).step_outcome ih.serves)
      (descends_io op ih.serves)
  | @sync file s files _ ih =>
    refine ih.after (location_sync file s) (keeps_sync.step_outcome ih.serves) ?_
    exact (writtenBack_release file ih.sound.store).descends ih.serves

/-! ## Writing back -/

/-- What flushing an open file or letting it go does in any session. All ways of doing it leave the same
store: that in which the copy, if anything was written to it, is the content of the location at which the
file was opened, whether that location now holds the opened file, another one or nothing. So nothing is
created, and nothing else is changed, exactly if the file does not stray; in particular not if its location
still holds the file that was opened. -/
theorem Held.write_back (h : Held path ino file a) :
    file.location = path.location ∧ a.store.NumbersFile ino ∧
    (backend.sync.outcome (file, a.store)).2.2 = backend.release file a.store ∧
    ((backend.io .flush).outcome (file, a.store)).2.2 = backend.release file a.store ∧
    WrittenBack file a.store (backend.release file a.store) ∧
    (a.store.Spares ino (backend.release file a.store) ↔ ¬ file.Strays ino a.store) := by
  have hfollowed := h.followed
  refine ⟨hfollowed.location, hfollowed.number, rfl, ?_, ?_, ?_⟩
  · exact congrArg Prod.snd (flush_apply file a.store)
  · exact writtenBack_release file hfollowed.sound.store
  · exact spares_release_iff hfollowed.sound.store ino

/-- A file that was deleted while it was open, with something written to it, is created anew when it is let
go. -/
theorem Held.write_back_deleted :
    ∃ (file : OpenFile) (a : Session), Held ⟨"/f"⟩ 2 file a ∧ a.store.find? ["f"] = none ∧
      (backend.release file a.store).find? ["f"] = some (.file 3 [99, 98]) ∧
      ¬ a.store.Spares 2 (backend.release file a.store) := by
  obtain ⟨file, a, h, hgone, hdirty, hlocation, hroot, hback⟩ :
      ∃ (file : OpenFile) (a : Session), Held ⟨"/f"⟩ 2 file a ∧ a.store.find? ["f"] = none ∧
        file.dirty = true ∧ file.location = ["f"] ∧ a.store.find? [] = some (.dir 1 []) ∧
        (backend.release file a.store).find? ["f"] = some (.file 3 [99, 98]) := by
    have ha : Reachable ⟨_, _⟩ := .step .start (.call (.write ⟨"/f"⟩ [97, 98]) _ _)
    have hopened : Held ⟨"/f"⟩ 2 ⟨["f"], [97, 98], 0, { read := true, write := true }, false⟩ ⟨_, []⟩ :=
      @Held.opened _ _ _ _ { read := true, write := true } _ [97, 98] ha
        (Prod.ext (by decide +kernel) rfl) (by decide +kernel)
    have hdeleted : Held ⟨"/f"⟩ 2 _ ⟨_, _⟩ := (hopened.io (.write [99])).next (.call (.delete ⟨"/f"⟩) _ _)
    exact ⟨_, _, hdeleted, by decide +kernel, by decide +kernel, by decide +kernel, by decide +kernel,
      by decide +kernel⟩
  refine ⟨file, a, h, hgone, hback, fun hspares => ?_⟩
  have hadmits : a.store.Admits file.location := ⟨[], "f", hlocation, by decide +kernel, 1, [], hroot⟩
  refine h.write_back.2.2.2.2.2.mp hspares ⟨hdirty, .inl ⟨?_, hadmits⟩⟩
  rw [hlocation, hgone]

end Session

end FileProvider.Memory
