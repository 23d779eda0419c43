import FileProvider.Proofs.Descriptors
import FileProvider.Proofs.Service.Opening

/-!
# The descriptors that a service hands out

The callers of a service open files, work on them and close them, in any order and with any descriptors.
`Handled` keeps the record of what they were given and what they gave back, and `Handled.tracks` says that
the table agrees with it after every run that hands out fewer descriptors than there are numbers. A close
gives the descriptor back whatever becomes of the file.
-/

set_option autoImplicit false

namespace FileProvider.Service

open Memory

variable {σ η : Type} {b : Backend σ η} {S T : Service σ η} {fd : Descriptor} {file : η}
  {path : Path} {mode : OpenMode}

/-! ## One operation -/

/-- A file is opened and gets a descriptor, or nothing is taken into the table. -/
theorem openPath_cases (b : Backend σ η) (path : Path) (mode : OpenMode) (S : Service σ η) :
    (∃ e fs, (openPath b path mode).outcome S = some (.error e, { S with fs := fs })) ∨
    ∃ file fs fd files, S.files.insert file = .ok (fd, files) ∧
      (openPath b path mode).outcome S = some (.ok fd, { S with fs := fs, files := files }) := by
  cases hcall : b.call (.openFile path mode) S.fs with
  | error e fs => exact .inl ⟨e, fs, Run.outcome_failed (openPath_refused hcall)⟩
  | ok file fs =>
    cases hinsert : S.files.insert file with
    | error e => exact .inl ⟨e, _, Run.outcome_failed (openPath_untaken hcall hinsert)⟩
    | ok taken => exact .inr ⟨file, fs, _, _, hinsert, Run.outcome_ok (openPath_taken hcall hinsert)⟩

/-- Closing an open file gives back its descriptor, whether or not what was written is lost. -/
theorem closeFile_open (b : Backend σ η) (h : S.files.find? fd = some file) :
    ∃ fs, (closeFile b fd).outcome S
      = some ((b.sync.outcome (file, S.fs)).1, { S with fs := fs, files := S.files.erase fd }) := by
  unfold Run.outcome closeFile Step.outcome
  rw [h]
  dsimp only
  cases hsync : b.sync (file, S.fs) with
  | ok _ hs => exact ⟨b.release hs.1 hs.2, rfl⟩
  | error e hs => exact ⟨b.release hs.1 hs.2, rfl⟩

theorem closeFile_unknown (b : Backend σ η) (h : S.files.find? fd = none) :
    (closeFile b fd).outcome S = some (.error (.badDescriptor fd), S) := by
  unfold Run.outcome closeFile
  rw [h]

/-- Work on an open file puts the file back under its descriptor. -/
theorem withFile_open {ε α : Type} (x : Step (η × σ) ε α) (h : S.files.find? fd = some file) :
    ∃ r fs file', (withFile fd x).outcome S
      = (.ok r, { S with fs := fs, files := S.files.replace fd file' }) := by
  unfold Step.outcome withFile
  rw [h]
  exact ⟨_, _, _, rfl⟩

theorem withFile_unknown {ε α : Type} (x : Step (η × σ) ε α) (h : S.files.find? fd = none) :
    (withFile fd x).outcome S = (.error (.badDescriptor fd), S) := by
  unfold Step.outcome withFile
  rw [h]

/-! ## Runs -/

/-- The services that can come about while files are opened, worked on and closed, each with the
descriptors that were handed out and those that were given back, in order. -/
inductive Handled : List Descriptor → List Descriptor → Service σ η → Prop where
  | start (S : Service σ η) (h : S.files = .empty) : Handled [] [] S
  /-- Something happens that does not concern the open files. -/
  | elsewhere {out back : List Descriptor} {S T : Service σ η} (h : Handled out back S)
      (hfiles : T.files = S.files) : Handled out back T
  /-- A file is opened. -/
  | opened {out back : List Descriptor} {S T : Service σ η} {fd : Descriptor} (h : Handled out back S)
      (b : Backend σ η) (path : Path) (mode : OpenMode)
      (hopen : (openPath b path mode).outcome S = some (.ok fd, T)) : Handled (out ++ [fd]) back T
  /-- An opening is refused. -/
  | refused {out back : List Descriptor} {S T : Service σ η} {e : FsError} (h : Handled out back S)
      (b : Backend σ η) (path : Path) (mode : OpenMode)
      (hopen : (openPath b path mode).outcome S = some (.error e, T)) : Handled out back T
  /-- A file is read, written or sought in, or there is none with the descriptor. -/
  | worked {out back : List Descriptor} {S T : Service σ η} {ε α : Type} {r : Except FsError (Except ε α)}
      (h : Handled out back S) (fd : Descriptor) (x : Step (η × σ) ε α)
      (hwork : (withFile fd x).outcome S = (r, T)) : Handled out back T
  /-- An open file is closed, with or without a failure. -/
  | closed {out back : List Descriptor} {S T : Service σ η} {r : Except FsError Unit}
      (h : Handled out back S) (b : Backend σ η) (fd : Descriptor) (hhas : S.files.has fd = true)
      (hclose : (closeFile b fd).outcome S = some (r, T)) : Handled out (back ++ [fd]) T
  /-- There is no file to close. -/
  | missed {out back : List Descriptor} {S T : Service σ η} {r : Except FsError Unit}
      (h : Handled out back S) (b : Backend σ η) (fd : Descriptor) (hhas : ¬ S.files.has fd = true)
      (hclose : (closeFile b fd).outcome S = some (r, T)) : Handled out back T

namespace Handled

variable {out back : List Descriptor}

/-- The table agrees with what was handed out and given back. -/
theorem tracks (h : Handled out back S) (hout : out.length ≤ 2 ^ 31 - 3) : S.files.Tracks out back := by
  induction h with
  | start S h =>
    rw [h]
    exact Descriptors.tracks_empty
  | elsewhere h hfiles ih =>
    rw [hfiles]
    exact ih hout
  | @opened out back S T fd h b path mode hopen ih =>
    rw [List.length_append] at hout
    have hbefore := ih (Nat.le_of_succ_le hout)
    rcases openPath_cases b path mode S with ⟨e, fs, hrefused⟩ | ⟨file, fs, fd', files, hinsert, htaken⟩
    · cases hrefused.symm.trans hopen
    · cases htaken.symm.trans hopen
      exact hbefore.insert hout hinsert
  | @refused out back S T e h b path mode hopen ih =>
    rcases openPath_cases b path mode S with ⟨e', fs, hrefused⟩ | ⟨file, fs, fd', files, hinsert, htaken⟩
    · cases hrefused.symm.trans hopen
      exact ih hout
    · cases htaken.symm.trans hopen
  | @worked out back S T ε α r h fd x hwork ih =>
    cases hfile : S.files.find? fd with
    | none =>
      cases (withFile_unknown x hfile).symm.trans hwork
      exact ih hout
    | some file =>
      obtain ⟨r', fs, file', hopen⟩ := withFile_open x hfile
      cases hopen.symm.trans hwork
      exact (ih hout).replace fd file'
  | @closed out back S T r h b fd hhas hclose ih =>
    obtain ⟨file, hfile⟩ := Option.isSome_iff_exists.mp hhas
    obtain ⟨fs, hopen⟩ := closeFile_open b hfile
    cases hopen.symm.trans hclose
    exact (ih hout).erase hhas
  | @missed out back S T r h b fd hhas hclose ih =>
    have hnone : S.files.find? fd = none := Option.not_isSome_iff_eq_none.mp hhas
    cases (closeFile_unknown b hnone).symm.trans hclose
    exact ih hout

/-- What callers can rely on after every run that hands out fewer descriptors than there are: they are
numbered from three, so that none comes twice or is negative, the open files are those whose descriptors were
not given back, and there are never more than 1024 of them. Then a file is refused, and without a trace in
the table, while at every other time it gets the next number. A close gives back its own descriptor and no
other, and ends as the last sync does; a descriptor that no file has is refused, and nothing changes. -/
theorem descriptors_fresh (h : Handled out back S) (hout : out.length < 2 ^ 31 - 3) :
    ((∀ k (hk : k < out.length), out[k].toInt = 3 + k) ∧ out.Nodup) ∧
    (∀ fd, S.files.has fd = true ↔ fd ∈ out ∧ fd ∉ back) ∧
    (S.files.size = (out.filter (· ∉ back)).length ∧ S.files.size ≤ 1024) ∧
    (∀ file, (∃ e, S.files.insert file = .error e) ↔ S.files.size = 1024) ∧
    (∀ (b : Backend σ η) (path : Path) (mode : OpenMode) (file : η) (fs : σ),
      b.call (.openFile path mode) S.fs = .ok file fs →
      if S.files.size = 1024 then
        (openPath b path mode).outcome S
          = some (.error (.io "too many open files"), { S with fs := b.release file fs })
      else ∃ fd T, (openPath b path mode).outcome S = some (.ok fd, T) ∧ fd.toInt = 3 + out.length ∧
        T.files.size = S.files.size + 1) ∧
    (∀ (b : Backend σ η) (fd : Descriptor) (file : η), S.files.find? fd = some file →
      ∃ T, (closeFile b fd).outcome S = some ((b.sync.outcome (file, S.fs)).1, T) ∧
        T.files.find? fd = none ∧ (∀ other, other ≠ fd → T.files.find? other = S.files.find? other) ∧
        T.files.next = S.files.next) ∧
    ∀ fd, ¬ (fd ∈ out ∧ fd ∉ back) →
      (∀ b : Backend σ η, (closeFile b fd).outcome S = some (.error (.badDescriptor fd), S)) ∧
      ∀ (ε α : Type) (x : Step (η × σ) ε α), (withFile fd x).outcome S = (.error (.badDescriptor fd), S) := by
  have ht := h.tracks (Nat.le_of_lt hout)
  refine ⟨⟨fun k hk => ht.toInt_getElem (Nat.le_of_lt hout) hk, ht.nodup (Nat.le_of_lt hout)⟩,
    fun _ => ht.has_iff, ⟨ht.size_eq, ht.size⟩, fun file => ?_,
    fun b path mode file fs hcall => ?_, fun b fd file hfile => ?_, fun fd hfd => ?_⟩
  · constructor
    · rintro ⟨e, he⟩
      exact Nat.le_antisymm ht.size (Descriptors.insert_eq_error_iff.mp he).1
    · exact fun hfull => ⟨_, Descriptors.insert_eq_error_iff.mpr ⟨Nat.le_of_eq hfull.symm, rfl⟩⟩
  · split
    · next hfull =>
      have hinsert : S.files.insert file = .error (.io "too many open files") :=
        Descriptors.insert_eq_error_iff.mpr ⟨Nat.le_of_eq hfull.symm, rfl⟩
      exact Run.outcome_failed (openPath_untaken hcall hinsert)
    · next hroom =>
      rcases S.files.insert_cases file with ⟨_, files, hinsert, hsize⟩ | ⟨hfull, _⟩
      · refine ⟨_, _, Run.outcome_ok (openPath_taken hcall hinsert), ?_, hsize⟩
        rw [ht.next, Descriptors.toInt_nth hout]
      · exact absurd (Nat.le_antisymm ht.size hfull) hroom
  · obtain ⟨fs, hclose⟩ := closeFile_open b hfile
    refine ⟨_, hclose, ?_, fun other hother => ?_, rfl⟩
    · rw [Descriptors.find?_erase, if_pos rfl]
    · rw [Descriptors.find?_erase, if_neg hother]
  · have hnone : S.files.find? fd = none :=
      Option.not_isSome_iff_eq_none.mp fun hhas => hfd (ht.has_iff.mp hhas)
    exact ⟨fun b => closeFile_unknown b hnone, fun _ _ x => withFile_unknown x hnone⟩

/-- The filesystem is emptied under an open file that was written to. Closing it fails, but the descriptor
was given back: it is unknown from then on, and the next file gets another one. -/
theorem descriptors_fresh_lost :
    ∃ S T U : Service Store OpenFile, Handled [3] [] S ∧
      (closeFile backend 3).outcome S = some (.error (.notFound "/d"), T) ∧ Handled [3] [3] T ∧
      (closeFile backend 3).outcome T = some (.error (.badDescriptor 3), T) ∧
      (openPath backend ⟨"/g"⟩ .forCreation).outcome { T with fs := Store.empty } = some (.ok 4, U) := by
  obtain ⟨s, hs⟩ : ∃ s, s = storeAfter [.createDir ⟨"/d"⟩, .write ⟨"/d/f"⟩ [97]] := ⟨_, rfl⟩
  let mode : OpenMode := { read := true, write := true }
  let file : OpenFile := ⟨["d", "f"], [97], 0, mode, false⟩
  have hcall : backend.call (.openFile ⟨"/d/f"⟩ mode) s = .ok file s := by
    rw [hs]
    exact Step.eq_ok_of_outcome (Prod.ext (by decide +kernel) (by decide +kernel))
  have hopened : Handled [3] [] (⟨"app", s, ⟨4, [(3, file)]⟩, .empty⟩ : Service Store OpenFile) :=
    .opened (Handled.start ⟨"app", s, .empty, .empty⟩ rfl) backend ⟨"/d/f"⟩ mode
      (Run.outcome_ok (openPath_taken hcall rfl))
  let files : Descriptors OpenFile := ⟨4, [(3, file.written [7])]⟩
  have hworked : Handled [3] [] (⟨"app", s, files, .empty⟩ : Service Store OpenFile) :=
    hopened.worked 3 (backend.io (.write [7])) rfl
  have hgone : Handled [3] [] (⟨"app", Store.empty, files, .empty⟩ : Service Store OpenFile) :=
    hworked.elsewhere rfl
  have hlost : (backend.sync.outcome (file.written [7], Store.empty)).1 = .error (.notFound "/d") := by
    decide +kernel
  obtain ⟨_, _, _, _, _, hclose, _⟩ := hgone.descriptors_fresh (by decide)
  obtain ⟨T, hT, _⟩ := hclose backend 3 (file.written [7]) rfl
  rw [hlost] at hT
  have hclosed : Handled [3] [3] T := hgone.closed backend 3 rfl hT
  obtain ⟨_, _, ⟨hsize, _⟩, _, _, _, hother⟩ := hclosed.descriptors_fresh (by decide)
  obtain ⟨_, _, _, _, hopen, _, _⟩ :=
    (hclosed.elsewhere rfl : Handled [3] [3] { T with fs := Store.empty }).descriptors_fresh (by decide)
  have hnew : backend.call (.openFile ⟨"/g"⟩ .forCreation) Store.empty
      = .ok ⟨["g"], [], 0, .forCreation, false⟩ (Store.empty.add [] "g" fun ino => .file ino []) :=
    Step.eq_ok_of_outcome (Prod.ext (by decide +kernel) (by decide +kernel))
  have hanswer := hopen backend _ _ _ _ hnew
  have hroom : ¬ T.files.size = 1024 := by
    rw [hsize]
    decide
  rw [if_neg hroom] at hanswer
  obtain ⟨fd, U, hU, hfd, _⟩ := hanswer
  obtain rfl : fd = 4 := Int32.toInt_inj.mp hfd
  exact ⟨_, T, U, hgone, hT, hclosed, (hother 3 (by decide)).1 backend, hU⟩

end Handled

end FileProvider.Service
