import FileProvider.Host.Folder
import FileProvider.Memory.Backend
import FileProvider.Proofs.Host.Opening
import FileProvider.Proofs.Host.Twins
import FileProvider.Proofs.Memory.Seeking
import FileProvider.Proofs.Service.Gate
import FileProvider.Proofs.Service.Opening

/-!
# Opening in memory and on the host

A file is opened in memory by rules of its own and on the host by those of the host. Where the same tree
is held, the two agree but for a few openings, which `Differs` lists: the host refuses some modes and some
names that are all the same in memory, opens a directory for reading, tells a file on the way from nothing on
the way, and creates files under names that are no text. Neither of them keeps permissions.
-/

set_option autoImplicit false

namespace FileProvider

open Memory (Store Found Sought)

/-- The code of a result: that of its failure, if it is one. -/
def FsError.codeOf {α : Type} : Except FsError α → StatusCode
  | .ok _ => StatusCode.success
  | .error e => e.code

/-- The codes with which opening a file in memory ends, unless its name is refused. -/
def Memory.openCodes : List StatusCode := [StatusCode.success, 13900002, 13900015, 13900018, 13900019]

theorem Host.Fault.code_not_mem {e : IoError} (he : Host.Fault e) (context : String) :
    (FsError.ofIo e context).code ∉ Memory.openCodes := by
  cases he <;> simp [FsError.ofIo, IoError.kind, IoKind.ofErrno, IoError.errno?, FsError.code,
    Errno.nameTooLong, Errno.tooManyLinks, Memory.openCodes, StatusCode.success]

/-- Whether opening what a search comes to ends otherwise in memory than on the host: the host may open a
directory and sees first that it is there, has no room for a long name, and tells a file on the way from
nothing on the way. -/
def Memory.Found.Differs (m : OpenMode) : Found → Prop
  | .dir => m.createNew = true ∨ (m.write || m.append || m.create) = false
  | .file => False
  | .missing name _ => Host.nameLimit < Name.size name
  | .behind _ rest => ¬ (rest = [] ∧ (m.create || m.createNew) = true)

/-- Whether opening the file at a location ends otherwise in memory than on the host: the host cannot be asked
for the mode, or for the location, or it depends on what is found. A name for which there is no file in memory
is refused there as an argument that makes no sense, and on the host only if the mode or a null character
makes it so. -/
def Differs (s : Store) (base : Location) (m : OpenMode) (l : Location) : Prop :=
  Memory.Unnamable m l ∧ Host.validMode m = true ∧ Host.spellable (base ++ l) = .ok () ∨
  ¬ Memory.Unnamable m l ∧
    (Host.validMode m = false ∨ Host.askable (base ++ l) ≠ .ok () ∨ (s.seek [] l).Differs m)

/-- What is shown of two outcomes: one code and one tree unless they differ, and two codes if they do. -/
structure Verdict {α β : Type} (differs : Prop) (base : Location) (a : Except FsError α × Store)
    (b : Except FsError β × Host) : Prop where
  same : ¬ differs → FsError.codeOf a.1 = FsError.codeOf b.1 ∧ Twins a.2 b.2 base
  other : differs → FsError.codeOf a.1 ≠ FsError.codeOf b.1

namespace Verdict

variable {α β : Type} {differs differs' : Prop} {base : Location} {a : Except FsError α × Store}
  {b : Except FsError β × Host}

theorem congr (hd : differs ↔ differs') (hv : Verdict differs' base a b) : Verdict differs base a b :=
  ⟨fun h => hv.same fun h' => h (hd.mpr h'), fun h => hv.other (hd.mp h)⟩

theorem of_same (hdiffers : ¬ differs) (hcode : FsError.codeOf a.1 = FsError.codeOf b.1)
    (ht : Twins a.2 b.2 base) : Verdict differs base a b :=
  ⟨fun _ => ⟨hcode, ht⟩, fun h => absurd h hdiffers⟩

theorem of_other (hdiffers : differs) (hcode : FsError.codeOf a.1 ≠ FsError.codeOf b.1) :
    Verdict differs base a b :=
  ⟨fun h => absurd hdiffers h, fun _ => hcode⟩

/-- Two codes that are known. -/
theorem of_codes (c d : StatusCode) (hdiffers : differs) (ha : FsError.codeOf a.1 = c)
    (hb : FsError.codeOf b.1 = d) (hne : c ≠ d) : Verdict differs base a b :=
  of_other hdiffers (by rw [ha, hb]; exact hne)

end Verdict

/-! ## Outcomes -/

section

variable {s : Store} {h k : Host} {l : Location} {m : OpenMode} {context : String}

theorem host_ok {id : Option Nat} (hopen : Host.openNode l m h = .ok id k) :
    (Host.Folder.host context (Host.openFile l m)).outcome h = (.ok ⟨id, 0, m⟩, k) := by
  refine Step.outcome_ok ?_
  rw [Host.Folder.host, Host.openFile, bind_apply, hopen]
  rfl

theorem host_error {e : IoError} (hopen : Host.openNode l m h = .error e k) :
    (Host.Folder.host context (Host.openFile l m)).outcome h = (.error (FsError.ofIo e context), k) := by
  refine Step.outcome_error ?_
  rw [Host.Folder.host, Host.openFile, bind_apply, hopen]

/-- Opening a file in memory ends with one of five codes, unless its name is refused. -/
theorem memory_code (hs : s.WellFormed) (hname : ¬ Memory.Unnamable m l) :
    FsError.codeOf ((Memory.openFile l m).outcome s).1 ∈ Memory.openCodes := by
  have hok : ∀ {file t}, Memory.openFile l m s = .ok file t →
      FsError.codeOf ((Memory.openFile l m).outcome s).1 ∈ Memory.openCodes := by
    intro file t hopen
    rw [Step.outcome_ok hopen]
    exact List.mem_cons_self
  have herror : ∀ {e t}, Memory.openFile l m s = .error e t → e.code ∈ Memory.openCodes →
      FsError.codeOf ((Memory.openFile l m).outcome s).1 ∈ Memory.openCodes := by
    intro e t hopen hcode
    rw [Step.outcome_error hopen]
    exact hcode
  have hsought : Sought s l (s.seek [] l) := Memory.sought_root hs l
  generalize s.seek [] l = found at hsought
  cases hsought with
  | dir hdir => exact herror (Memory.openFile_dir hdir m) (by simp [FsError.code, Memory.openCodes])
  | file hfile =>
    have hopen := Memory.openFile_file hs hfile m
    split at hopen
    · exact herror hopen (by simp [FsError.code, Memory.openCodes])
    · exact hok hopen
  | @missing p n rest hp hnone =>
    by_cases hcreate : rest = [] ∧ (m.create || m.createNew) = true
    · obtain ⟨rfl, hcreate⟩ := hcreate
      exact hok (Memory.openFile_created hs (Memory.isText_of_not_unnamable hname hcreate) hp hnone hcreate)
    · obtain ⟨what, hopen⟩ := Memory.openFile_missing hs hname hnone hcreate
      exact herror hopen (by simp [FsError.code, Memory.openCodes])
  | @behind p n rest ino data hfile =>
    by_cases hcreate : rest = [] ∧ (m.create || m.createNew) = true
    · obtain ⟨rfl, hcreate⟩ := hcreate
      have hn : Name.isText n = true := Memory.isText_of_not_unnamable hname hcreate
      exact herror (Memory.openFile_behind hs hfile hn hcreate) (by simp [FsError.code, Memory.openCodes])
    · obtain ⟨what, hopen⟩ := Memory.openFile_missing hs hname (Memory.none_in_file hs hfile n) hcreate
      exact herror hopen (by simp [FsError.code, Memory.openCodes])

end

/-! ## Agreement -/

namespace Twins

variable {s : Store} {h : Host} {base l p : Location} {m : OpenMode} {context : String}

/-- What the host refuses for a reason that there is not in memory ends otherwise. -/
theorem verdict_refused (ht : Twins s h base) (hname : ¬ Memory.Unnamable m l) {differs : Prop}
    (hdiffers : differs) {place : Location} {e : IoError} (hopen : Host.openNode place m h = .error e h)
    (hcode : (FsError.ofIo e context).code ∉ Memory.openCodes) :
    Verdict differs base ((Memory.openFile l m).outcome s)
      ((Host.Folder.host context (Host.openFile place m)).outcome h) := by
  refine .of_other hdiffers fun heq => hcode ?_
  rw [host_error hopen] at heq
  rw [show (FsError.ofIo e context).code = _ from heq.symm]
  exact memory_code ht.store hname

/-- A mode that the host does not know, or a location that it cannot be asked for. -/
theorem verdict_unaskable (ht : Twins s h base) (hname : ¬ Memory.Unnamable m l)
    (hask : Host.validMode m = false ∨ Host.askable (base ++ l) ≠ .ok ()) :
    Verdict (Differs s base m l) base ((Memory.openFile l m).outcome s)
      ((Host.Folder.host context (Host.openFile (base ++ l) m)).outcome h) := by
  cases hm : Host.validMode m with
  | false =>
    obtain ⟨e, hopen, hkind⟩ := Host.openNode_invalid hm (base ++ l) h
    refine ht.verdict_refused hname (.inr ⟨hname, .inl hm⟩) hopen ?_
    simp [FsError.ofIo, hkind, FsError.code, Memory.openCodes, StatusCode.success]
  | true =>
    have hrefused : Host.askable (base ++ l) ≠ .ok () := by
      refine hask.resolve_left ?_
      rw [hm]
      exact Bool.noConfusion
    cases hlocation : Host.askable (base ++ l) with
    | ok _ => exact absurd hlocation hrefused
    | error e =>
      refine ht.verdict_refused hname (.inr ⟨hname, .inr (.inl hrefused)⟩)
        (Host.openNode_unaskable hm hlocation h) ?_
      exact (Host.fault_of_askable hlocation).code_not_mem context

/-- Where the host can be asked, what is found alone says whether the two differ. -/
theorem differs_iff (hname : ¬ Memory.Unnamable m l) (hm : Host.validMode m = true)
    (hask : Host.askable (base ++ l) = .ok ()) : Differs s base m l ↔ (s.seek [] l).Differs m := by
  rw [Differs, or_iff_right (fun h => hname h.1), and_iff_right hname,
    or_iff_right (by rw [hm]; exact Bool.noConfusion), or_iff_right (absurd hask)]

section

variable (ht : Twins s h base) (hm : Host.validMode m = true)

include ht hm

theorem verdict_dir (hask : Host.askable (base ++ l) = .ok ()) (hdir : s.IsDir l) :
    Verdict (Found.dir.Differs m) base ((Memory.openFile l m).outcome s)
      ((Host.Folder.host context (Host.openFile (base ++ l) m)).outcome h) := by
  have hopen := Host.openNode_dir ht.host hm hask (ht.find?_dir hdir)
  rw [Step.outcome_error (Memory.openFile_dir hdir m)]
  by_cases hnew : m.createNew = true
  · rw [if_pos hnew] at hopen
    rw [host_error hopen]
    exact .of_codes 13900019 13900015 (.inl hnew) rfl rfl (by decide)
  · rw [if_neg hnew] at hopen
    by_cases hwrites : (m.write || m.append || m.create) = true
    · rw [if_pos hwrites] at hopen
      rw [host_error hopen]
      refine .of_same ?_ rfl ht
      rintro (h | h)
      · exact hnew h
      · rw [hwrites] at h
        cases h
    · rw [if_neg hwrites] at hopen
      rw [host_ok hopen]
      exact .of_codes 13900019 StatusCode.success (.inr (Bool.eq_false_iff.mpr hwrites)) rfl rfl (by decide)

theorem verdict_file (hask : Host.askable (base ++ l) = .ok ()) {ino : Nat} {data : Bytes}
    (hfile : s.find? l = some (.file ino data)) :
    Verdict (Found.file.Differs m) base ((Memory.openFile l m).outcome s)
      ((Host.Folder.host context (Host.openFile (base ++ l) m)).outcome h) := by
  obtain ⟨id, hid⟩ := ht.find?_file hfile
  have hmemory := Memory.openFile_file ht.store hfile m
  have hopen := Host.openNode_file ht.host hm hask hid
  cases hnew : m.createNew with
  | true =>
    rw [hnew, if_pos rfl] at hmemory hopen
    rw [Step.outcome_error hmemory, host_error hopen]
    exact .of_same (fun hdiffers => hdiffers) rfl ht
  | false =>
    rw [hnew, if_neg Bool.false_ne_true] at hmemory hopen
    rw [Step.outcome_ok hmemory, host_ok hopen]
    refine .of_same (fun hdiffers => hdiffers) rfl ?_
    cases m.truncate with
    | true => exact ht.emptied hfile hid
    | false => exact ht

/-- What opening what is missing does on the host. -/
theorem host_missing {n : String} {rest : List String} (hl : Location.Descends (p ++ n :: rest))
    (hask : Host.askable (base ++ (p ++ n :: rest)) = .ok ()) (hp : s.IsDir p)
    (hnone : s.find? (p ++ [n]) = none) :
    Host.openNode (base ++ (p ++ n :: rest)) m h
      = if Host.nameLimit < Name.size n then .error (.os Errno.nameTooLong) h
        else if rest = [] ∧ (m.create || m.createNew) = true
          then .ok (some h.nextId) (h.withFile (base ++ (p ++ [n])))
        else .error (.os Errno.noEntry) h := by
  have hdir : h.find? (base ++ p) = some .dir := ht.find?_dir hp
  have hfree : h.find? (base ++ p ++ [n]) = none := by
    rw [List.append_assoc]
    exact ht.find?_none hnone
  have hplace : Location.Descends (base ++ p ++ n :: rest) :=
    Location.descends_append.mpr ⟨ht.host.descends hdir, (Location.descends_append.mp hl).2⟩
  rw [← List.append_assoc] at hask
  rw [← List.append_assoc, ← List.append_assoc]
  exact Host.openNode_missing ht.host hm hask hplace hdir hfree

theorem host_behind {n : String} {rest : List String} {ino : Nat} {data : Bytes}
    (hl : Location.Descends (p ++ n :: rest)) (hask : Host.askable (base ++ (p ++ n :: rest)) = .ok ())
    (hfile : s.find? p = some (.file ino data)) :
    Host.openNode (base ++ (p ++ n :: rest)) m h = .error (.os Errno.notADirectory) h := by
  obtain ⟨id, hid⟩ := ht.find?_file hfile
  have hplace : Location.Descends (base ++ p ++ n :: rest) :=
    Location.descends_append.mpr ⟨ht.host.descends hid, (Location.descends_append.mp hl).2⟩
  rw [← List.append_assoc] at hask ⊢
  exact Host.openNode_behind ht.host hm hask hplace hid

theorem verdict_missing {n : String} {rest : List String} (hname : ¬ Memory.Unnamable m (p ++ n :: rest))
    (hl : Location.Descends (p ++ n :: rest)) (hask : Host.askable (base ++ (p ++ n :: rest)) = .ok ())
    (hp : s.IsDir p) (hnone : s.find? (p ++ [n]) = none) :
    Verdict ((Found.missing n rest).Differs m) base ((Memory.openFile (p ++ n :: rest) m).outcome s)
      ((Host.Folder.host context (Host.openFile (base ++ (p ++ n :: rest)) m)).outcome h) := by
  have hopen := ht.host_missing hm hl hask hp hnone
  by_cases hlong : Host.nameLimit < Name.size n
  · rw [if_pos hlong] at hopen
    exact ht.verdict_refused hname hlong hopen (Host.Fault.nameTooLong.code_not_mem context)
  · rw [if_neg hlong] at hopen
    by_cases hcreate : rest = [] ∧ (m.create || m.createNew) = true
    · obtain ⟨rfl, hcreate⟩ := hcreate
      have hn : Name.isText n = true := Memory.isText_of_not_unnamable hname hcreate
      have hstep : IsChildStep n := (Location.descends_child.mp hl).2
      rw [if_pos ⟨rfl, hcreate⟩] at hopen
      rw [Step.outcome_ok (Memory.openFile_created ht.store hn hp hnone hcreate), host_ok hopen]
      exact .of_same hlong rfl (ht.created hp hnone (hstep.isName hn) (Nat.le_of_not_lt hlong))
    · rw [if_neg hcreate] at hopen
      obtain ⟨what, hmemory⟩ := Memory.openFile_missing ht.store hname hnone hcreate
      rw [Step.outcome_error hmemory, host_error hopen]
      exact .of_same hlong rfl ht

theorem verdict_behind {n : String} {rest : List String} {ino : Nat} {data : Bytes}
    (hname : ¬ Memory.Unnamable m (p ++ n :: rest)) (hl : Location.Descends (p ++ n :: rest))
    (hask : Host.askable (base ++ (p ++ n :: rest)) = .ok ()) (hfile : s.find? p = some (.file ino data)) :
    Verdict ((Found.behind n rest).Differs m) base ((Memory.openFile (p ++ n :: rest) m).outcome s)
      ((Host.Folder.host context (Host.openFile (base ++ (p ++ n :: rest)) m)).outcome h) := by
  rw [host_error (ht.host_behind hm hl hask hfile)]
  by_cases hcreate : rest = [] ∧ (m.create || m.createNew) = true
  · obtain ⟨rfl, hcreate⟩ := hcreate
    have hn : Name.isText n = true := Memory.isText_of_not_unnamable hname hcreate
    rw [Step.outcome_error (Memory.openFile_behind ht.store hfile hn hcreate)]
    exact .of_same (fun hdiffers => hdiffers ⟨rfl, hcreate⟩) rfl ht
  · obtain ⟨what, hmemory⟩ :=
      Memory.openFile_missing ht.store hname (Memory.none_in_file ht.store hfile n) hcreate
    rw [Step.outcome_error hmemory]
    exact .of_codes 13900002 13900018 hcreate rfl rfl (by decide)

end

/-- The host, if it can be asked, does not refuse a file that has no name in memory as an argument that makes
no sense. -/
theorem code_of_unnamable (ht : Twins s h base) (hname : Memory.Unnamable m l) (hl : l.Descends)
    (hm : Host.validMode m = true) (hask : Host.askable (base ++ l) = .ok ()) :
    FsError.codeOf ((Host.Folder.host context (Host.openFile (base ++ l) m)).outcome h).1 ≠ 13900020 := by
  have hnone : s.find? l = none := by
    obtain ⟨-, p, n, rfl, hn⟩ := hname
    exact ht.store.none_of_foreign hn
  have hsought : Sought s l (s.seek [] l) := Memory.sought_root ht.store l
  generalize s.seek [] l = found at hsought
  cases hsought with
  | dir hdir =>
    obtain ⟨ino, names, hfind⟩ := hdir
    cases hnone.symm.trans hfind
  | file hfile => cases hnone.symm.trans hfile
  | missing hp hfree =>
    have hopen := ht.host_missing hm hl hask hp hfree
    split at hopen
    · rw [host_error hopen]
      exact (by decide : (13900005 : StatusCode) ≠ 13900020)
    · split at hopen
      · rw [host_ok hopen]
        exact (by decide : StatusCode.success ≠ 13900020)
      · rw [host_error hopen]
        exact (by decide : (13900002 : StatusCode) ≠ 13900020)
  | behind hfile =>
    rw [host_error (ht.host_behind hm hl hask hfile)]
    exact (by decide : (13900018 : StatusCode) ≠ 13900020)

/-- A file that is refused in memory because of its name: the host may create it, or refuse it for a reason
of its own, and only if the argument makes no sense there either the codes are the same. -/
theorem verdict_unnamable (ht : Twins s h base) (hname : Memory.Unnamable m l) (hl : l.Descends) :
    Verdict (Differs s base m l) base ((Memory.openFile l m).outcome s)
      ((Host.Folder.host context (Host.openFile (base ++ l) m)).outcome h) := by
  have hdiffers : Differs s base m l ↔ Host.validMode m = true ∧ Host.spellable (base ++ l) = .ok () := by
    rw [Differs, and_iff_right hname, or_iff_left fun h => h.1 hname]
  have hsame : ∀ {e : IoError}, e.kind = .invalidInput → (FsError.ofIo e context).code = 13900020 := by
    intro e hkind
    simp [FsError.ofIo, hkind, FsError.code]
  obtain ⟨what, hmemory⟩ := Memory.openFile_unnamable ht.store hname
  refine .congr hdiffers ?_
  rw [Step.outcome_error hmemory]
  cases hm : Host.validMode m with
  | false =>
    obtain ⟨e, hopen, hkind⟩ := Host.openNode_invalid hm (base ++ l) h
    rw [host_error hopen]
    exact .of_same (fun h => Bool.noConfusion h.1) (hsame hkind).symm ht
  | true =>
    cases hspell : Host.spellable (base ++ l) with
    | error e =>
      rw [host_error (Host.openNode_unspellable hspell m h)]
      exact .of_same (fun h => by cases h.2) (hsame (Host.kind_of_spellable hspell)).symm ht
    | ok _ =>
      cases hask : Host.askable (base ++ l) with
      | error e =>
        rw [host_error (Host.openNode_unaskable hm hask h), Host.eq_of_askable hspell hask]
        exact .of_codes 13900020 13900005 ⟨rfl, rfl⟩ rfl rfl (by decide)
      | ok _ => exact .of_other ⟨rfl, rfl⟩ (ht.code_of_unnamable hname hl hm hask).symm

/-- Opening the same location of two that hold the same tree ends in the same way, unless the two differ
there. -/
theorem verdict (ht : Twins s h base) (hl : l.Descends) (m : OpenMode) (context : String) :
    Verdict (Differs s base m l) base ((Memory.openFile l m).outcome s)
      ((Host.Folder.host context (Host.openFile (base ++ l) m)).outcome h) := by
  by_cases hname : Memory.Unnamable m l
  · exact ht.verdict_unnamable hname hl
  cases hm : Host.validMode m with
  | false => exact ht.verdict_unaskable hname (.inl hm)
  | true =>
    by_cases hask : Host.askable (base ++ l) = .ok ()
    · refine .congr (differs_iff hname hm hask) ?_
      have hsought : Sought s l (s.seek [] l) := Memory.sought_root ht.store l
      generalize s.seek [] l = found at hsought ⊢
      cases hsought with
      | dir hdir => exact ht.verdict_dir hm hask hdir
      | file hfile => exact ht.verdict_file hm hask hfile
      | missing hp hnone => exact ht.verdict_missing hm hname hl hask hp hnone
      | behind hfile => exact ht.verdict_behind hm hname hl hask hfile
    · exact ht.verdict_unaskable hname (.inr hask)

end Twins

/-! ## Requests -/

namespace Service

variable {σ η : Type} {uri : String} {bits : UInt32} {m : OpenMode}

/-- A request to open a file answers as the filesystem does, if there is a descriptor left. -/
theorem openFile_answer (b : Backend σ η) (S : Service σ η) (haddress : Uri.isAddress uri = true)
    (hmode : OpenMode.ofBits bits = .ok m) (hroom : S.files.size < Descriptors.capacity) :
    ∃ reply T, (Request.openFile uri bits).reply b S = some (reply, T) ∧
      reply.code = FsError.codeOf ((b.call (.openFile ⟨Uri.pathOf S.bundle uri⟩ m)).outcome S.fs).1 ∧
      T.fs = ((b.call (.openFile ⟨Uri.pathOf S.bundle uri⟩ m)).outcome S.fs).2 := by
  have hrun := openFile_checked b S haddress hmode
  cases hcall : b.call (.openFile ⟨Uri.pathOf S.bundle uri⟩ m) S.fs with
  | error e fs =>
    rw [Run.mapError, openPath_refused hcall] at hrun
    rw [Step.outcome, hcall]
    exact ⟨_, _, Reply.ofRun_failed hrun (-1), rfl, rfl⟩
  | ok file fs =>
    rcases S.files.insert_cases file with ⟨_, files, hinsert, _⟩ | ⟨hfull, _⟩
    · rw [Run.mapError, openPath_taken hcall hinsert] at hrun
      rw [Step.outcome, hcall]
      exact ⟨_, _, Reply.ofRun_ok hrun (-1), rfl, rfl⟩
    · exact absurd hroom (Nat.not_lt.mpr hfull)

/-- A file is opened with the same code in memory and on the host, and leaves the same tree, unless the two
differ about it; where they differ there are two codes. This is so for every path and every mode, and for
every request with a valid URI and sensible bits if there is a descriptor left. -/
theorem openFile_agrees {s : Store} {h : Host} {base : Location} (ht : Twins s h base) :
    (∀ (path : Path) (m : OpenMode),
      ∃ a t b k, (Memory.backend.call (.openFile path m)).outcome s = (a, t) ∧
        ((Host.Folder.backend base).call (.openFile path m)).outcome h = (b, k) ∧
        (¬ Differs s base m path.location → FsError.codeOf a = FsError.codeOf b ∧ Twins t k base) ∧
        (Differs s base m path.location → FsError.codeOf a ≠ FsError.codeOf b)) ∧
    ∀ (S : Service Store Memory.OpenFile) (T : Service Host Host.OpenFile) (uri : String) (bits : UInt32)
      (m : OpenMode), S.fs = s → T.fs = h → T.bundle = S.bundle → S.files.size < Descriptors.capacity →
      T.files.size < Descriptors.capacity → Uri.isAddress uri = true → OpenMode.ofBits bits = .ok m →
      ∃ a S' b T', (Request.openFile uri bits).reply Memory.backend S = some (a, S') ∧
        (Request.openFile uri bits).reply (Host.Folder.backend base) T = some (b, T') ∧
        (¬ Differs s base m (S.place uri) → a.code = b.code ∧ Twins S'.fs T'.fs base) ∧
        (Differs s base m (S.place uri) → a.code ≠ b.code) := by
  have hcalls : ∀ (path : Path) (m : OpenMode), Verdict (Differs s base m path.location) base
      ((Memory.backend.call (.openFile path m)).outcome s)
      (((Host.Folder.backend base).call (.openFile path m)).outcome h) := by
    intro path m
    have hlocate : Host.Folder.locate base path = base ++ path.location := by
      rw [Host.Folder.locate, path.confined_eq]
    change Verdict _ base ((Memory.openFile path.location m).outcome s)
      ((Host.Folder.host ("open " ++ path.text) (Host.openFile (Host.Folder.locate base path) m)).outcome h)
    rw [hlocate]
    exact ht.verdict path.location_descends m _
  refine ⟨fun path m => ?_, ?_⟩
  · exact ⟨_, _, _, _, rfl, rfl, (hcalls path m).same, (hcalls path m).other⟩
  · rintro S T uri bits m rfl rfl hbundle hroom hroom' haddress hmode
    obtain ⟨a, S', ha, hcode, hfs⟩ := openFile_answer Memory.backend S haddress hmode hroom
    obtain ⟨b, T', hb, hcode', hfs'⟩ :=
      openFile_answer (Host.Folder.backend base) T haddress hmode hroom'
    have hverdict := hcalls ⟨Uri.pathOf S.bundle uri⟩ m
    rw [hbundle] at hcode' hfs'
    refine ⟨a, S', b, T', ha, hb, ?_, ?_⟩
    · rw [hcode, hcode', hfs, hfs']
      exact hverdict.same
    · rw [hcode, hcode']
      exact hverdict.other

/-- A store with a directory and a file in it. -/
def heldStore : Store := storeAfter [.createDir ⟨"/r"⟩, .write ⟨"/r/f"⟩ [97, 98]]

/-- Makes a directory that holds the same. -/
def makeHeld : Host.Op Unit := do
  Host.createDir ["srv"]
  Host.createDir ["srv", "r"]
  Host.writeFile ["srv", "r", "f"] [97, 98]

/-- A host on which a directory holds the same. -/
def heldHost : Host := (makeHeld.outcome Host.empty).2

theorem heldHost_entries : heldHost.entries
    = [([], .dir), (["srv"], .dir), (["srv", "r"], .dir), (["srv", "r", "f"], .file 0)] := by
  decide +kernel

theorem twins_held : Twins heldStore heldHost ["srv"] where
  store := (reachable_storeAfter [.createDir ⟨"/r"⟩, .write ⟨"/r/f"⟩ [97, 98]]).sound.store
  host := by
    have hkeeps : Keeps Host.WellFormed makeHeld :=
      (Host.keeps_createDir _).bind fun _ => (Host.keeps_createDir _).bind fun _ => Host.keeps_writeFile _ _
    exact hkeeps.step_outcome Host.wellFormed_empty
  same l := by
    have hstore : heldStore.entries
        = [([], .dir 1 ["r"]), (["r"], .dir 2 ["f"]), (["r", "f"], .file 3 [97, 98])] := by
      decide +kernel
    have hdata : heldHost.content 0 = [97, 98] := by decide +kernel
    rw [Host.seen, Host.find?, Store.find?, hstore, heldHost_entries]
    simp only [Catalogue.find?_cons, List.singleton_append, List.cons.injEq, true_and, reduceCtorEq,
      ↓reduceIte]
    split_ifs
    · rfl
    · rfl
    · exact congrArg (some ∘ Host.Seen.file) hdata
    · rfl
  single := by
    have hfile : ∀ {p id}, heldHost.find? p = some (.file id) → p = ["srv", "r", "f"] := by
      intro p id hp
      have hmem := Catalogue.mem_of_find? hp
      rw [heldHost_entries] at hmem
      have hentry : p = ["srv", "r", "f"] ∧ id = 0 := by simpa using hmem
      exact hentry.1
    intro l k id hl hk
    exact List.append_cancel_left ((hfile hl).trans (hfile hk).symm)

theorem not_differs_held :
    ¬ Differs heldStore ["srv"] { read := true, write := true, truncate := true } ["r", "f"] := by
  have hfound : heldStore.seek [] ["r", "f"] = .file := by decide +kernel
  rw [Differs, hfound]
  rintro (hname | ⟨-, hmode | hask | hno⟩)
  · cases hname.1.1
  · cases hmode
  · exact hask (by rfl)
  · exact hno

theorem differs_held : Differs heldStore ["srv"] { read := true } ["r"] := by
  have hfound : heldStore.seek [] ["r"] = .dir := by decide +kernel
  rw [Differs, hfound]
  exact .inr ⟨fun hname => Bool.noConfusion hname.1, .inr (.inr (.inr rfl))⟩

/-- A file is emptied on both, and a directory is opened for reading on the host alone. -/
theorem openFile_agrees_held :
    let S : Service Store Memory.OpenFile := start Uri.defaultBundle heldStore
    let T : Service Host Host.OpenFile := start Uri.defaultBundle heldHost
    (∃ a S' b T', (Request.openFile "datashare:///r/f" 514).reply Memory.backend S = some (a, S') ∧
      (Request.openFile "datashare:///r/f" 514).reply (Host.Folder.backend ["srv"]) T = some (b, T') ∧
      a.code = b.code ∧ Twins S'.fs T'.fs ["srv"]) ∧
    ∃ a S' b T', (Request.openFile "datashare:///r" 0).reply Memory.backend S = some (a, S') ∧
      (Request.openFile "datashare:///r" 0).reply (Host.Folder.backend ["srv"]) T = some (b, T') ∧
      a.code ≠ b.code := by
  intro S T
  have hfile : S.place "datashare:///r/f" = ["r", "f"] := by decide +kernel
  have hdir : S.place "datashare:///r" = ["r"] := by decide +kernel
  constructor
  · obtain ⟨a, S', b, T', ha, hb, hsame, -⟩ := (openFile_agrees twins_held).2 S T "datashare:///r/f" 514
      { read := true, write := true, truncate := true } rfl rfl rfl (by decide) (by decide)
      (by decide +kernel) (by decide +kernel)
    exact ⟨a, S', b, T', ha, hb, hsame (hfile ▸ not_differs_held)⟩
  · obtain ⟨a, S', b, T', ha, hb, -, hother⟩ := (openFile_agrees twins_held).2 S T "datashare:///r" 0
      { read := true } rfl rfl rfl (by decide) (by decide) (by decide +kernel) (by decide +kernel)
    exact ⟨a, S', b, T', ha, hb, hother (hdir ▸ differs_held)⟩

/-- Opening does not always end in the same way where the same tree is held. -/
theorem openFile_of_directory :
    ¬ ∀ (s : Store) (h : Host) (base : Location), Twins s h base →
      ∀ (path : Path) (bits : UInt32) (m : OpenMode), OpenMode.ofBits bits = .ok m →
      FsError.codeOf ((Memory.backend.call (.openFile path m)).outcome s).1
        = FsError.codeOf (((Host.Folder.backend base).call (.openFile path m)).outcome h).1 ∧
      Twins ((Memory.backend.call (.openFile path m)).outcome s).2
        (((Host.Folder.backend base).call (.openFile path m)).outcome h).2 base := by
  intro hall
  have hsame := hall heldStore heldHost ["srv"] twins_held ⟨"/r"⟩ 0 { read := true } (by decide +kernel)
  exact absurd hsame.1 (by decide +kernel)

end Service

end FileProvider
