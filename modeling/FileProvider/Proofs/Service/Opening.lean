import FileProvider.Proofs.Memory.Opening
import FileProvider.Proofs.Service.Handed

/-!
# Opening a file without a descriptor for it

A service checks a URI and the bits of an opening before it does anything, and the filesystem refuses an
opening without a change. Whether there is a descriptor left is asked last, when the file is open already
and may have been created or emptied for that. So a refused request changes something exactly if it is
refused for want of a descriptor after such an opening.
-/

set_option autoImplicit false

namespace FileProvider

/-- A table takes a file in under the next descriptor, unless it is full. -/
theorem Descriptors.insert_cases {η : Type} (t : Descriptors η) (file : η) :
    (t.size < capacity ∧ ∃ t', t.insert file = .ok (t.next, t') ∧ t'.size = t.size + 1) ∨
    (capacity ≤ t.size ∧ t.insert file = .error (.io "too many open files")) := by
  unfold insert
  by_cases hfull : capacity ≤ t.size
  · rw [if_pos hfull]
    exact .inr ⟨hfull, rfl⟩
  · rw [if_neg hfull]
    exact .inl ⟨Nat.lt_of_not_le hfull, _, rfl, List.length_append⟩

namespace Service

open Memory

variable {σ η α : Type} {S : Service Store OpenFile} {uri : String} {bits : UInt32}

theorem onFs_apply (x : Run σ FsError α) (S : Service σ η) :
    onFs x S = match x S.fs with
      | .ok a fs => .ok a { S with fs := fs }
      | .error e fs => .error e { S with fs := fs } := by
  unfold onFs Run.zoom
  cases x S.fs <;> rfl

/-- The location of the entry that a URI addresses. -/
def place (S : Service σ η) (uri : String) : Location := (Path.mk (Uri.pathOf S.bundle uri)).location

/-- Opening the file at a valid URI with sensible bits opens the file at its path. -/
theorem openFile_checked (b : Backend σ η) (S : Service σ η) {mode : OpenMode}
    (haddress : Uri.isAddress uri = true) (hmode : OpenMode.ofBits bits = .ok mode) :
    openFile b uri bits S = (openPath b ⟨Uri.pathOf S.bundle uri⟩ mode).mapError .platform S := by
  rw [openFile, bind_apply, check_apply haddress]
  dsimp only
  rw [bind_apply, hmode]
  rfl

section

variable {b : Backend σ η} {S : Service σ η} {path : Path} {mode : OpenMode} {fs : σ}

/-- An opening that the filesystem refuses is refused. -/
theorem openPath_refused {e : FsError} (h : b.call (.openFile path mode) S.fs = .error e fs) :
    openPath b path mode S = .error (.failed e) { S with fs := fs } := by
  have hrun : b.run (.openFile path mode) S.fs = .error (.failed e) fs := Run.ofStep_error h
  rw [openPath, bind_apply, onFs_apply, hrun]

/-- A file that is open is taken into the table. -/
theorem openPath_taken {file : η} {fd : Descriptor} {files : Descriptors η}
    (h : b.call (.openFile path mode) S.fs = .ok file fs) (hinsert : S.files.insert file = .ok (fd, files)) :
    openPath b path mode S = .ok fd { S with fs := fs, files := files } := by
  have hrun : b.run (.openFile path mode) S.fs = .ok file fs := Run.ofStep_ok h
  have hget : ∀ T : Service σ η, (get : Run _ FsError _) T = .ok T T := fun _ => rfl
  rw [openPath, bind_apply, onFs_apply, hrun]
  dsimp only
  rw [bind_apply, hget]
  dsimp only
  rw [hinsert]
  rfl

/-- A file that is open is let go if the table does not take it. -/
theorem openPath_untaken {file : η} {e : FsError}
    (h : b.call (.openFile path mode) S.fs = .ok file fs) (hinsert : S.files.insert file = .error e) :
    openPath b path mode S = .error (.failed e) { S with fs := b.release file fs } := by
  have hrun : b.run (.openFile path mode) S.fs = .ok file fs := Run.ofStep_ok h
  have hget : ∀ T : Service σ η, (get : Run _ FsError _) T = .ok T T := fun _ => rfl
  rw [openPath, bind_apply, onFs_apply, hrun]
  dsimp only
  rw [bind_apply, hget]
  dsimp only
  rw [hinsert]
  rfl

end

/-! ## The whole operation -/

/-- Whether a request to open a file changes the filesystem although it is refused: no descriptor is left
for a file that is created or emptied. -/
structure Spills (S : Service Store OpenFile) (uri : String) (bits : UInt32) : Prop where
  full : Descriptors.capacity ≤ S.files.size
  address : Uri.isAddress uri = true
  alters : ∃ mode, OpenMode.ofBits bits = .ok mode ∧ Alters mode S.fs (S.place uri)

/-- What a request to open a file answers if it opens none, or opens one for which there is a descriptor,
or opens one for which there is none. -/
theorem openFile_cases (hs : S.fs.WellFormed) (uri : String) (bits : UInt32) :
    (¬ S.Spills uri bits ∧ ∃ e, openFile backend uri bits S = .error (.failed e) S) ∨
    (¬ S.Spills uri bits ∧ ∃ fd T, openFile backend uri bits S = .ok fd T) ∨
    ∃ mode ino data t, OpenMode.ofBits bits = .ok mode ∧ Opened mode S.fs (S.place uri) ino data t ∧
      (S.Spills uri bits ↔ t ≠ S.fs) ∧
      openFile backend uri bits S
        = .error (.failed (.platform (.io "too many open files"))) { S with fs := t } := by
  by_cases haddress : Uri.isAddress uri = true
  · cases hmode : OpenMode.ofBits bits with
    | error e =>
      refine .inl ⟨fun hspills => ?_, .platform e, ?_⟩
      · obtain ⟨mode, hok, _⟩ := hspills.alters
        cases hmode.symm.trans hok
      · rw [openFile, bind_apply, check_apply haddress]
        dsimp only
        rw [bind_apply, hmode]
        rfl
    | ok mode =>
      rcases atomic_opening hs.keys (S.place uri) mode with ⟨e, he⟩ | ⟨file, t, ht, hopened⟩
      · refine .inl ⟨fun hspills => ?_, .platform e, ?_⟩
        · obtain ⟨_, hok, halters⟩ := hspills.alters
          cases hmode.symm.trans hok
          obtain ⟨ino, data, t, hopened⟩ := halters.opened
          have hopens := (openFile_eq_ok_iff hs).mpr ⟨ino, data, rfl, hopened⟩
          cases he.symm.trans hopens
        · rw [openFile_checked backend S haddress hmode, Run.mapError, openPath_refused he]
      · obtain ⟨ino, data, rfl, hopened⟩ := hopened
        rcases S.files.insert_cases ⟨S.place uri, data, 0, mode, false⟩ with
          ⟨hroom, files, hinsert, _⟩ | ⟨hfull, hinsert⟩
        · refine .inr (.inl ⟨fun hspills => absurd hspills.full (Nat.not_le.mpr hroom), S.files.next,
            { S with fs := t, files := files }, ?_⟩)
          rw [openFile_checked backend S haddress hmode, Run.mapError, openPath_taken ht hinsert]
        · refine .inr (.inr ⟨mode, ino, data, t, rfl, hopened, ?_, ?_⟩)
          · rw [hopened.ne_iff hs.keys]
            constructor
            · intro hspills
              obtain ⟨_, hok, halters⟩ := hspills.alters
              cases hmode.symm.trans hok
              exact halters
            · exact fun halters => ⟨hfull, haddress, mode, hmode, halters⟩
          · -- Nothing was written to the file, so that letting it go changes nothing.
            rw [openFile_checked backend S haddress hmode, Run.mapError, openPath_untaken ht hinsert]
            rfl
  · refine .inl ⟨fun hspills => haddress hspills.address, .invalidUri uri, ?_⟩
    rw [openFile, bind_apply, check, if_neg haddress]
    rfl

/-- A request to open a file that is refused answers with `-1` and changes neither the open files nor the
next descriptor. It leaves the filesystem as it was unless it spills; then the reason is that no descriptor
is left, and the file was created or emptied all the same. -/
theorem openFile_rejected {a : Session} (ha : a.Reachable) (hfs : S.fs = a.store) (uri : String)
    (bits : UInt32) :
    ∃ r T, Reply.ofRun (-1) (openFile backend uri bits) S = some (r, T) ∧
      (r.code ≠ StatusCode.success →
        r.value = -1 ∧ T = { S with fs := T.fs } ∧ (T.fs = S.fs ↔ ¬ S.Spills uri bits)) ∧
      (S.Spills uri bits → r.code = 13900005 ∧ ∃ mode ino data,
        OpenMode.ofBits bits = .ok mode ∧ Opened mode S.fs (S.place uri) ino data T.fs) := by
  have hs : S.fs.WellFormed := hfs ▸ ha.sound.store
  rcases openFile_cases hs uri bits with ⟨hkeeps, e, he⟩ | ⟨hkeeps, fd, T, hok⟩ |
    ⟨mode, ino, data, t, hmode, hopened, hspills, hfull⟩
  · refine ⟨_, _, Reply.ofRun_failed he (-1), fun _ => ⟨rfl, rfl, ?_⟩, fun h => absurd h hkeeps⟩
    exact iff_of_true rfl hkeeps
  · exact ⟨_, _, Reply.ofRun_ok hok (-1), fun hcode => absurd rfl hcode, fun h => absurd h hkeeps⟩
  · refine ⟨_, _, Reply.ofRun_failed hfull (-1), fun _ => ⟨rfl, rfl, ?_⟩, fun _ => ⟨rfl, ?_⟩⟩
    · rw [hspills, not_not]
    · exact ⟨mode, ino, data, hmode, hopened⟩

/-! ## A full table -/

/-- The service after a file was opened so many times. -/
def reopened (S : Service Store OpenFile) (uri : String) (bits : UInt32) : Nat → Service Store OpenFile
  | 0 => S
  | k + 1 =>
    match openFile backend uri bits (S.reopened uri bits k) with
    | .ok _ T => T
    | .error _ T => T

/-- A file can be opened until no descriptor is left. -/
theorem reopened_eq {mode : OpenMode} {ino : Nat} {data : Bytes} (hs : S.fs.WellFormed)
    (haddress : Uri.isAddress uri = true) (hmode : OpenMode.ofBits bits = .ok mode)
    (hopened : Opened mode S.fs (S.place uri) ino data S.fs) (k : Nat)
    (hroom : S.files.size + k ≤ Descriptors.capacity) :
    ∃ files, S.reopened uri bits k = { S with files := files } ∧ files.size = S.files.size + k := by
  induction k with
  | zero => exact ⟨S.files, rfl, rfl⟩
  | succ k ih =>
    obtain ⟨files, hfiles, hsize⟩ := ih (by omega)
    have hopens := (openFile_eq_ok_iff hs).mpr ⟨ino, data, rfl, hopened⟩
    rcases files.insert_cases ⟨S.place uri, data, 0, mode, false⟩ with
      ⟨_, files', hinsert, hsize'⟩ | ⟨hfull, _⟩
    · refine ⟨files', ?_, by omega⟩
      have hcall : backend.call (.openFile ⟨Uri.pathOf S.bundle uri⟩ mode) S.fs = .ok _ S.fs := hopens
      have htaken := openPath_taken (S := { S with files := files }) hcall hinsert
      rw [reopened, hfiles, openFile_checked backend _ haddress hmode, Run.mapError, htaken]
    · omega

/-- A table is filled with one file that is opened again and again. The next request creates a file and
the one after that empties a file, although both are refused. -/
theorem openFile_rejected_full :
    ∃ (a : Session) (S T U : Service Store OpenFile), a.Reachable ∧ S.fs = a.store ∧
      S = (start "app" a.store).reopened "datashare:///r/f" 0 1024 ∧
      Reply.ofRun (-1) (openFile backend "datashare:///r/new" 65) S = some (⟨-1, 13900005⟩, T) ∧
      S.fs.find? ["r", "new"] = none ∧ (T.fs.find? ["r", "new"]).isSome = true ∧
      Reply.ofRun (-1) (openFile backend "datashare:///r/f" 513) S = some (⟨-1, 13900005⟩, U) ∧
      S.fs.find? ["r", "f"] = some (.file 3 [97, 98]) ∧ U.fs ≠ S.fs := by
  obtain ⟨s, hs⟩ : ∃ s, s = storeAfter [.createDir ⟨"/r"⟩, .write ⟨"/r/f"⟩ [97, 98]] := ⟨_, rfl⟩
  have ha : Session.Reachable ⟨s, []⟩ := hs ▸ reachable_storeAfter _
  have hfile : s.find? ["r", "f"] = some (.file 3 [97, 98]) := by
    rw [hs]
    decide +kernel
  -- The table is filled.
  have hpath : (Path.mk (Uri.pathOf "app" "datashare:///r/f")).location = ["r", "f"] := by decide +kernel
  have hplace : (start "app" s : Service Store OpenFile).place "datashare:///r/f" = ["r", "f"] := hpath
  have hopened : Opened { read := true } s ((start "app" s : Service Store OpenFile).place
      "datashare:///r/f") 3 [97, 98] s := .found (hplace.symm ▸ hfile) rfl rfl
  have hroom : (start "app" s : Service Store OpenFile).files.size + 1024 ≤ Descriptors.capacity :=
    Nat.le_refl 1024
  obtain ⟨S, hS, hfs, hbundle, hfull⟩ : ∃ S : Service Store OpenFile,
      S = (start "app" s).reopened "datashare:///r/f" 0 1024 ∧ S.fs = s ∧ S.bundle = "app" ∧
      S.files.size = Descriptors.capacity := by
    obtain ⟨files, hfiles, hsize⟩ := @reopened_eq (start "app" s) "datashare:///r/f" 0 { read := true } 3
      [97, 98] ha.sound.store (by decide +kernel) (by decide +kernel) hopened 1024 hroom
    exact ⟨_, hfiles.symm, rfl, rfl, hsize⟩
  -- Each of the two requests spills.
  have hspilled : ∀ (uri : String) (bits : UInt32) (mode : OpenMode) (l : Location),
      Uri.isAddress uri = true → OpenMode.ofBits bits = .ok mode →
      (Path.mk (Uri.pathOf "app" uri)).location = l → Alters mode s l →
      ∃ T, Reply.ofRun (-1) (openFile backend uri bits) S = some (⟨-1, 13900005⟩, T) ∧ T.fs ≠ S.fs ∧
        (T.fs.find? l).isSome = true := by
    intro uri bits mode l haddress hmode hl halters
    have hplace : S.place uri = l := by rw [place, hbundle, hl]
    have hspill : S.Spills uri bits :=
      ⟨Nat.le_of_eq hfull.symm, haddress, mode, hmode, by rw [hfs, hplace]; exact halters⟩
    obtain ⟨⟨value, code⟩, T, hrun, hrefused, hspills⟩ := openFile_rejected ha hfs uri bits
    obtain ⟨rfl, _, ino, data, _, hopened⟩ := hspills hspill
    have hcode : (13900005 : StatusCode) ≠ StatusCode.success := by decide
    obtain ⟨rfl, _, hsame⟩ := hrefused hcode
    rw [hplace] at hopened
    exact ⟨T, hrun, fun heq => hsame.mp heq hspill, Option.isSome_iff_exists.mpr ⟨_, hopened.find?⟩⟩
  have hdir : s.IsDir ["r"] := ⟨2, ["f"], by rw [hs]; decide +kernel⟩
  have hfree : s.find? ["r", "new"] = none := by
    rw [hs]
    decide +kernel
  obtain ⟨T, hcreated, _, hnew⟩ := hspilled "datashare:///r/new" 65 { write := true, create := true }
    ["r", "new"] (by decide +kernel) (by decide +kernel) (by decide +kernel)
    (.inl ⟨rfl, hfree, ["r"], "new", rfl, by decide +kernel, hdir⟩)
  obtain ⟨U, hemptied, hchanged, _⟩ := hspilled "datashare:///r/f" 513 { write := true, truncate := true }
    ["r", "f"] (by decide +kernel) (by decide +kernel) hpath
    (.inr ⟨rfl, rfl, 3, [97, 98], hfile, List.cons_ne_nil _ _⟩)
  exact ⟨⟨s, []⟩, S, T, U, ha, hfs, hS, hcreated, hfs ▸ hfree, hnew, hemptied, hfs ▸ hfile, hchanged⟩

end Service

end FileProvider
