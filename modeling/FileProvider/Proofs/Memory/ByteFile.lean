import FileProvider.Proofs.Memory.Appending
import FileProvider.Proofs.Memory.Elsewhere

/-!
# An open file is an array of bytes

To its user an open file is an array of bytes with an offset, and a content that can be read at its path, which
lags behind until a flush. `ByteFile` says so without a store, a copy or a mark for what is unsaved. As long as
whatever else happens changes nothing about the file itself, an open file answers as its `ByteFile` does, and
what is read at its path is what that shows.
-/

set_option autoImplicit false

namespace FileProvider

/-! ## Arrays of bytes -/

/-- Content with new bytes over it from an offset on, byte by byte: what is neither new nor was there before
is zero. -/
def Bytes.overlay (old : Bytes) (offset : Nat) (new : Bytes) : Bytes :=
  (List.range (max old.length (offset + new.length))).map fun i =>
    if offset ≤ i ∧ i < offset + new.length then new.getD (i - offset) 0 else old.getD i 0

/-- Filling up with zeros and putting the new bytes between what is before and behind them is the same. -/
theorem Bytes.splice_eq_overlay (old : Bytes) (offset : Nat) (new : Bytes) :
    Bytes.splice old offset new = Bytes.overlay old offset new := by
  have hfront : ((old ++ List.replicate (offset - old.length) 0).take offset).length = offset := by
    rw [List.length_take, List.length_append, List.length_replicate]
    omega
  refine List.ext_getElem ?_ fun i hi hi' => ?_
  · rw [splice, overlay, List.length_append, List.length_append, hfront, List.length_drop, List.length_map,
      List.length_range]
    omega
  · simp only [overlay, splice, List.getElem_map, List.getElem_range, List.getElem_append, List.length_append,
      hfront, List.getElem_take, List.getElem_drop]
    by_cases hbefore : i < offset
    · have hlt : i < offset + new.length := by omega
      rw [dif_pos hlt, dif_pos hbefore, if_neg fun h => Nat.not_le_of_lt hbefore h.1]
      split
      · exact List.getElem_eq_getD 0
      · next hgap =>
        rw [List.getElem_replicate, List.getD_eq_getElem?_getD, List.getElem?_eq_none (Nat.le_of_not_lt hgap),
          Option.getD_none]
    · by_cases hnew : i < offset + new.length
      · rw [dif_pos hnew, dif_neg hbefore, if_pos ⟨Nat.le_of_not_lt hbefore, hnew⟩]
        exact List.getElem_eq_getD 0
      · have hbehind : offset + new.length + (i - (offset + new.length)) = i := by omega
        rw [dif_neg hnew, if_neg fun h => hnew h.2]
        simp only [hbehind]
        exact List.getElem_eq_getD 0

/-- A file as its user sees it. -/
structure ByteFile where
  mode : OpenMode
  data : Bytes
  /-- Where the next byte is read or written. -/
  offset : Nat
  /-- What can be read at the path of the file. -/
  shown : Bytes
deriving DecidableEq, Repr

namespace ByteFile

/-- The file when it has just been opened, `stored` being what was at its path. -/
def opened (mode : OpenMode) (stored : Option Bytes) : ByteFile :=
  let data := if mode.truncate then [] else stored.getD []
  ⟨mode, data, 0, data⟩

/-- Bytes are read, and the offset is behind them. -/
def pass (m : ByteFile) (bytes : Bytes) : Except IoError Bytes × ByteFile :=
  (.ok bytes, { m with offset := m.offset + bytes.length })

/-- Where bytes are written: in append mode at the end. -/
def target (m : ByteFile) : Nat := if m.mode.append then m.data.length else m.offset

/-- The offset is moved to a place, unless that is negative or no word of 64 bits. -/
def goTo (m : ByteFile) (place : Int) : Except IoError Nat × ByteFile :=
  if 0 ≤ place ∧ place < UInt64.size then (.ok place.toNat, { m with offset := place.toNat })
  else (.error Memory.OpenFile.badSeek, m)

/-- What is done with a file: the answer, and the file afterwards. -/
def io : {α : Type} → Io α → ByteFile → Except IoError α × ByteFile
  | _, .read count, m =>
    if m.mode.read then m.pass ((m.data.drop m.offset).take count)
    else (.error Memory.OpenFile.notReadable, m)
  | _, .readAll, m =>
    if m.mode.read then m.pass (m.data.drop m.offset) else (.error Memory.OpenFile.notReadable, m)
  | _, .write bytes, m =>
    if m.mode.write || m.mode.append then
      (.ok bytes.length,
        { m with data := m.data.overlay m.target bytes, offset := m.target + bytes.length })
    else (.error Memory.OpenFile.notWritable, m)
  | _, .seek (.start offset), m => (.ok offset, { m with offset := offset })
  | _, .seek (.current offset), m => m.goTo (m.offset + offset)
  | _, .seek (.fromEnd offset), m => m.goTo (m.data.length + offset)
  | _, .flush, m => (.ok (), { m with shown := m.data })

/-- The file after all that was done with it, the last first. -/
def did : List ((α : Type) × Io α) → ByteFile → ByteFile
  | [], m => m
  | ⟨_, op⟩ :: past, m => (io op (did past m)).2

end ByteFile

namespace Memory

/-- What can be read at a path, if there is a file. -/
def Store.stored? (s : Store) (path : Path) : Option Bytes :=
  ((backend.call (.read path)).outcome s).1.toOption

/-- Whether an open file of a location stands for a file as its user sees it. -/
structure Represents (l : Location) (file : OpenFile) (s : Store) (m : ByteFile) : Prop where
  location : file.location = l
  mode : file.mode = m.mode
  data : file.data = m.data
  offset : file.position = m.offset
  shown : ∃ ino, s.find? l = some (.file ino m.shown)
  /-- Where nothing is unsaved, the path shows everything. -/
  clean : file.dirty = false → m.shown = m.data

variable {s t : Store} {l : Location} {file : OpenFile} {m : ByteFile} {path : Path} {mode : OpenMode}

theorem read_outcome {ino : Nat} {data : Bytes} (hfile : s.find? path.location = some (.file ino data)) :
    (backend.call (.read path)).outcome s = (.ok data, s) :=
  Step.outcome_ok (read_file hfile)

theorem stored?_of_file {ino : Nat} {data : Bytes} (hfile : s.find? path.location = some (.file ino data)) :
    s.stored? path = some data := by
  rw [Store.stored?, read_outcome hfile]
  rfl

theorem stored?_of_free (hfree : s.find? path.location = none) : s.stored? path = none := by
  have hread : backend.call (.read path) s = .error (.notFound path.location.text) s := by
    change read path.location s = _
    rw [read_apply, hfree]
  rw [Store.stored?, Step.outcome_error hread]
  rfl

/-- What an open file has in its copy at first. -/
theorem Opened.data_eq {ino : Nat} {data : Bytes} (h : Opened mode s path.location ino data t) :
    data = (ByteFile.opened mode (s.stored? path)).data := by
  generalize hl : path.location = l at h
  cases h with
  | found hfile hnew hkeep =>
    rw [ByteFile.opened, stored?_of_file (hl ▸ hfile), hkeep, if_neg Bool.false_ne_true, Option.getD_some]
  | emptied hfile hnew htruncate => rw [ByteFile.opened, htruncate, if_pos rfl]
  | created hn hp hfree hcreate =>
    rw [ByteFile.opened, stored?_of_free (hl ▸ hfree), Option.getD_none, ite_self]

namespace Represents

/-- A file that was opened stands for the file that was stored, or for an empty one. -/
theorem opened (hs : s.WellFormed) (h : (backend.call (.openFile path mode)).outcome s = (.ok file, t)) :
    Represents path.location file t (.opened mode (s.stored? path)) := by
  obtain ⟨ino, data, rfl, hopened⟩ := (openFile_eq_ok_iff hs).mp (Step.eq_ok_of_outcome h)
  have hdata : data = (ByteFile.opened mode (s.stored? path)).data := hopened.data_eq
  refine ⟨rfl, rfl, hdata, rfl, ⟨ino, ?_⟩, fun _ => rfl⟩
  rw [hopened.find?, hdata]
  rfl

variable (h : Represents l file s m)

include h

/-- Reading moves the offset alone. -/
theorem pass (bytes : Bytes) : Represents l (file.advance bytes.length) s (m.pass bytes).2 :=
  ⟨h.location, h.mode, h.data, congrArg (· + bytes.length) h.offset, h.shown, h.clean⟩

theorem seek (offset : Nat) : Represents l { file with position := offset } s { m with offset := offset } :=
  ⟨h.location, h.mode, h.data, rfl, h.shown, h.clean⟩

/-- What is written is not shown yet. -/
theorem write (bytes : Bytes) : Represents l (file.written bytes) s
    { m with data := m.data.overlay m.target bytes, offset := m.target + bytes.length } := by
  have htarget : (if file.mode.append then file.data.length else file.position) = m.target := by
    rw [ByteFile.target, h.mode, h.data, h.offset]
  refine ⟨h.location, h.mode, ?_, ?_, h.shown, fun hclean => nomatch hclean⟩
  · change Bytes.splice file.data (if file.mode.append then file.data.length else file.position) bytes = _
    rw [htarget, h.data, Bytes.splice_eq_overlay]
  · change (if file.mode.append then file.data.length else file.position) + bytes.length = _
    rw [htarget]

/-- Bringing an open file into the store succeeds, and everything is shown. -/
theorem sync (hs : s.WellFormed) : ∃ file' t,
    backend.sync.outcome (file, s) = (.ok (), file', t) ∧ Represents l file' t { m with shown := m.data } := by
  obtain ⟨ino, hfile⟩ := h.shown
  rw [← h.location] at hfile
  have hwrite : Memory.write file.location file.data s = .ok () (s.put file.location (.file ino file.data)) :=
    (write_eq_ok_iff hs).mpr (.replaced hfile)
  change ∃ file' t, Memory.sync.outcome (file, s) = (.ok (), file', t) ∧ _
  unfold Step.outcome Memory.sync
  dsimp only
  cases hdirty : file.dirty with
  | false =>
    refine ⟨file, s, rfl, h.location, h.mode, h.data, h.offset, ⟨ino, ?_⟩, fun _ => rfl⟩
    rw [← h.location, hfile, h.clean hdirty]
  | true =>
    rw [if_pos rfl, hwrite]
    refine ⟨_, _, rfl, h.location, h.mode, h.data, h.offset, ⟨ino, ?_⟩, fun _ => rfl⟩
    rw [← h.location, Store.find?_put, if_pos rfl, h.data]

end Represents

/-- Whether an open file does what a file as its user sees it does: it gives the same answer, and stands for it
afterwards; a refusal changes nothing at all. -/
structure Follows {α : Type} (l : Location) (before : OpenFile × Store)
    (done : Except IoError α × OpenFile × Store) (seen : Except IoError α × ByteFile) : Prop where
  answer : done.1 = seen.1
  after : Represents l done.2.1 done.2.2 seen.2
  refused : ∀ e, seen.1 = .error e → done.2 = before

namespace Represents

variable {α : Type}

theorem refuse (h : Represents l file s m) (e : IoError) :
    Follows (α := α) l (file, s) (.error e, file, s) (.error e, m) := ⟨rfl, h, fun _ _ => rfl⟩

theorem give {before : OpenFile × Store} (h : Represents l file s m) (a : α) :
    Follows l before (.ok a, file, s) (.ok a, m) := ⟨rfl, h, fun _ he => nomatch he⟩

/-- A seek to a place goes there or is refused. -/
theorem goTo (h : Represents l file s m) (place : Int) :
    Follows l (file, s)
      (match OpenFile.sought.checked place with
        | some position => (.ok position, { file with position := position }, s)
        | none => (.error OpenFile.badSeek, file, s))
      (m.goTo place) := by
  unfold OpenFile.sought.checked ByteFile.goTo
  by_cases hplace : 0 ≤ place ∧ place < UInt64.size
  · rw [if_pos hplace, if_pos hplace]
    exact (h.seek _).give _
  · rw [if_neg hplace, if_neg hplace]
    exact h.refuse _

/-- Whatever is done with an open file, it does what the file that it stands for does. -/
theorem io (h : Represents l file s m) (hs : s.WellFormed) (op : Io α) :
    Follows l (file, s) ((backend.io op).outcome (file, s)) (m.io op) := by
  change Follows l (file, s) ((Memory.io op).outcome (file, s)) (m.io op)
  have hmode := h.mode
  cases op with
  | read count =>
    have hahead : file.ahead count = (m.data.drop m.offset).take count := by rw [OpenFile.ahead, h.data, h.offset]
    unfold Step.outcome Memory.io ByteFile.io
    dsimp only
    rw [hmode, hahead]
    cases m.mode.read with
    | false => exact h.refuse _
    | true => exact (h.pass _).give _
  | readAll =>
    unfold Step.outcome Memory.io ByteFile.io
    dsimp only
    rw [hmode, h.data, h.offset]
    cases m.mode.read with
    | false => exact h.refuse _
    | true => exact (h.pass _).give _
  | write bytes =>
    unfold Step.outcome Memory.io ByteFile.io
    dsimp only
    rw [hmode]
    cases m.mode.write || m.mode.append with
    | false => exact h.refuse _
    | true => exact (h.write bytes).give _
  | seek whence =>
    have hio : (Memory.io (.seek whence)).outcome (file, s) = match file.sought whence with
        | some position => (.ok position, { file with position := position }, s)
        | none => (.error OpenFile.badSeek, file, s) := by
      unfold Step.outcome Memory.io
      dsimp only
      cases file.sought whence <;> rfl
    rw [hio]
    cases whence with
    | start offset => exact (h.seek offset).give _
    | current offset =>
      have hsought : file.sought (.current offset) = OpenFile.sought.checked (m.offset + offset) := by
        rw [← h.offset]
        rfl
      rw [hsought]
      exact h.goTo _
    | fromEnd offset =>
      have hsought : file.sought (.fromEnd offset) = OpenFile.sought.checked (m.data.length + offset) := by
        rw [← h.data]
        rfl
      rw [hsought]
      exact h.goTo _
  | flush =>
    obtain ⟨file', t, hsync, hafter⟩ := h.sync hs
    have hok : Memory.sync (file, s) = .ok () (file', t) := Step.eq_ok_of_outcome hsync
    have hflush : Memory.io .flush (file, s) = .ok () (file', t) := by
      unfold Memory.io
      dsimp only
      rw [hok]
    rw [Step.outcome_ok hflush]
    exact hafter.give _

end Represents

/-- Whether an open file and the store behave as a file as its user sees it. -/
structure Behaves (path : Path) (file : OpenFile) (s : Store) (m : ByteFile) : Prop where
  /-- Whatever is done next is answered as that file answers it. -/
  answers : ∀ {α : Type} (op : Io α), ((backend.io op).outcome (file, s)).1 = (m.io op).1
  /-- What is refused changes nothing. -/
  refused : ∀ {α : Type} (op : Io α) (e : IoError), (m.io op).1 = .error e →
    ((backend.io op).outcome (file, s)).2 = (file, s)
  /-- The path shows what that file shows. -/
  shown : (backend.call (.read path)).outcome s = (.ok m.shown, s)
  /-- Bringing the file into the store does not fail. -/
  saved : (backend.sync.outcome (file, s)).1 = .ok ()
  /-- When the file is let go, the path shows everything. -/
  closed : (backend.call (.read path)).outcome (backend.release file s) = (.ok m.data, backend.release file s)

theorem Represents.behaviour (h : Represents path.location file s m) (hs : s.WellFormed) :
    Behaves path file s m := by
  obtain ⟨file', t, hsync, hafter⟩ := h.sync hs
  have hrelease : backend.release file s = t := congrArg (fun done => done.2.2) hsync
  obtain ⟨ino, hfile⟩ := h.shown
  obtain ⟨ino', hfile'⟩ := hafter.shown
  refine ⟨fun op => (h.io hs op).answer, fun op => (h.io hs op).refused, read_outcome hfile, ?_, ?_⟩
  · rw [hsync]
  · rw [hrelease]
    exact read_outcome hfile'

/-! ## Runs -/

namespace Session

/-- A session seen from one of its open files, with all that was done with the file, the last first. The file was
opened at a path in a session that can come about, and whatever else has happened since changed nothing about the
file at the path. The session is that of the store and the other open files. -/
inductive Used (path : Path) (mode : OpenMode) (a₀ : Session) :
    List ((α : Type) × Io α) → OpenFile → Session → Prop where
  | opened {t : Store} {file : OpenFile} (ha : a₀.Reachable)
      (hopen : (backend.call (.openFile path mode)).outcome a₀.store = (.ok file, t)) :
      Used path mode a₀ [] file ⟨t, a₀.files⟩
  /-- The file is read, written, sought in or flushed. -/
  | io {past : List ((α : Type) × Io α)} {α : Type} (op : Io α) {file : OpenFile} {s : Store}
      {files : List OpenFile} (h : Used path mode a₀ past file ⟨s, files⟩) :
      Used path mode a₀ (⟨α, op⟩ :: past) ((backend.io op).outcome (file, s)).2.1
        ⟨((backend.io op).outcome (file, s)).2.2, files⟩
  /-- The file is brought into the store; that is as good as a flush. -/
  | sync {past : List ((α : Type) × Io α)} {file : OpenFile} {s : Store} {files : List OpenFile}
      (h : Used path mode a₀ past file ⟨s, files⟩) :
      Used path mode a₀ (⟨Unit, .flush⟩ :: past) (backend.sync.outcome (file, s)).2.1
        ⟨(backend.sync.outcome (file, s)).2.2, files⟩
  | elsewhere {past : List ((α : Type) × Io α)} {file : OpenFile} {a b : Session}
      (h : Used path mode a₀ past file a) (hnext : Elsewhere path.location a b) : Used path mode a₀ past file b

variable {a₀ a : Session} {past : List ((α : Type) × Io α)}

/-- Every point of a run is as `Represents` says. -/
theorem Used.represents (h : Used path mode a₀ past file a) :
    a.Sound ∧ Represents path.location file a.store ((ByteFile.opened mode (a₀.store.stored? path)).did past) := by
  induction h with
  | opened ha hopen =>
    have hstore := (keeps_call (.openFile path mode)).step_outcome ha.sound.store
    rw [hopen] at hstore
    exact ⟨⟨hstore, ha.sound.files⟩, .opened ha.sound.store hopen⟩
  | @io past α op file s files h ih =>
    obtain ⟨hsound, hrep⟩ := ih
    have hserves : Serves (file, s) := ⟨hrep.location ▸ path.location_descends, hsound.store⟩
    exact ⟨⟨((keeps_io op).step_outcome hserves).2, hsound.files⟩, (hrep.io hsound.store op).after⟩
  | @sync past file s files h ih =>
    obtain ⟨hsound, hrep⟩ := ih
    have hserves : Serves (file, s) := ⟨hrep.location ▸ path.location_descends, hsound.store⟩
    obtain ⟨file', t, hsync, hafter⟩ := hrep.sync hsound.store
    refine ⟨⟨(keeps_sync.step_outcome hserves).2, hsound.files⟩, ?_⟩
    change Represents path.location (backend.sync.outcome (file, s)).2.1 (backend.sync.outcome (file, s)).2.2 _
    rw [hsync]
    exact hafter
  | elsewhere h hnext ih =>
    obtain ⟨hsound, hrep⟩ := ih
    obtain ⟨ino, hfile⟩ := hrep.shown
    exact ⟨hsound.next hnext.next, hrep.location, hrep.mode, hrep.data, hrep.offset,
      ⟨ino, hnext.find? hsound hfile⟩, hrep.clean⟩

/-- In every session that can come about, whatever was done with an open file, it behaves as an array of bytes
with an offset: at first what was stored, or empty. -/
theorem Used.behaves (h : Used path mode a₀ past file a) :
    Behaves path file a.store ((ByteFile.opened mode (a₀.store.stored? path)).did past) := by
  obtain ⟨hsound, hrep⟩ := h.represents
  exact hrep.behaviour hsound.store

/-- A file of two bytes to which one was written behind a gap, while another file came into being. -/
theorem Used.behaves_gap :
    ∃ (a₀ a : Session) (file : OpenFile),
      Used ⟨"/f"⟩ { read := true, write := true } a₀ [⟨Nat, .write [99]⟩, ⟨Nat, .seek (.fromEnd 2)⟩] file a ∧
      a₀.store.stored? ⟨"/f"⟩ = some [97, 98] ∧ a.store.stored? ⟨"/g"⟩ = some [1] ∧
      ((backend.io (.seek (.current (-6)))).outcome (file, a.store)).1 = .error OpenFile.badSeek ∧
      (backend.call (.read ⟨"/f"⟩)).outcome a.store = (.ok [97, 98], a.store) ∧
      ((backend.call (.read ⟨"/f"⟩)).outcome (backend.release file a.store)).1 = .ok [97, 98, 0, 0, 99] := by
  have hstore : ((backend.call (.write ⟨"/f"⟩ [97, 98])).outcome Store.empty).2
      = ⟨[([], .dir 1 ["f"]), (["f"], .file 2 [97, 98])], 3⟩ := by decide +kernel
  have hreach : Reachable ⟨_, []⟩ := .step .start (.call (.write ⟨"/f"⟩ [97, 98]) .empty [])
  rw [hstore] at hreach
  have hopen : (backend.call (.openFile ⟨"/f"⟩ { read := true, write := true })).outcome
      ⟨[([], .dir 1 ["f"]), (["f"], .file 2 [97, 98])], 3⟩
      = (.ok ⟨["f"], [97, 98], 0, { read := true, write := true }, false⟩,
        ⟨[([], .dir 1 ["f"]), (["f"], .file 2 [97, 98])], 3⟩) := by decide +kernel
  have helsewhere : ∀ q ∈ (Call.write ⟨"/g"⟩ [1] : Call OpenFile Unit).touched,
      ¬ q.location <+: (Path.mk "/f").location := by decide +kernel
  have hused := (((Used.opened hreach hopen).io (.seek (.fromEnd 2))).io (.write [99])).elsewhere
    (.call (.write ⟨"/g"⟩ [1]) _ _ helsewhere)
  have hbehaves := hused.behaves
  refine ⟨_, _, _, hused, by decide +kernel, by decide +kernel, ?_, hbehaves.shown, ?_⟩
  · rw [hbehaves.answers]
    decide +kernel
  · rw [hbehaves.closed]
    decide +kernel

end Session

end Memory

end FileProvider
