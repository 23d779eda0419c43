import FileProvider.Fs.Entry
import FileProvider.Fs.OpenMode
import FileProvider.Proofs.Json.Reading
import FileProvider.Proofs.Path.Location
import FileProvider.Service.Document
import FileProvider.Service.Error
import FileProvider.Service.Reply
import FileProvider.Service.Root
import FileProvider.Settings
import FileProvider.Uri.Record
import FileProvider.Volume.Event
import Mathlib.Data.List.Nodup

/-!
# Every record comes back

What is written of a record is read back as the record. Few values are not fit to be written: a cause of failure
with an empty text, an entry whose name would be refused, a time outside of the words that times are written as.
No reader accepts any of these, so what was accepted once is accepted again after it was written.
-/

set_option autoImplicit false

namespace FileProvider

open Json

/-! ## Records with all their fields -/

theorem Document.ofJson_toJson (d : Document) : ofJson d.toJson = .ok d := by
  simp [ofJson, toJson, record, required, List.lookup_cons]

theorem Device.ofJson_toJson (d : Device) : ofJson d.toJson = .ok d := by
  cases d <;> rfl

theorem Root.ofJson_toJson (r : Root) : ofJson r.toJson = .ok r := by
  simp [ofJson, toJson, record, required, List.lookup_cons, Device.ofJson_toJson]

theorem FileKind.ofJson_toJson (k : FileKind) : ofJson k.toJson = .ok k := by
  cases k <;> rfl

theorem Medium.ofJson_toJson (m : Medium) : ofJson m.toJson = .ok m := by
  cases m <;> rfl

theorem Volume.ofJson_toJson (v : Volume) : ofJson v.toJson = .ok v := by
  simp [ofJson, toJson, record, required, List.lookup_cons, Medium.ofJson_toJson]

theorem VolumeReport.ofJson_toJson (r : VolumeReport) : ofJson r.toJson = .ok r := by
  simp [ofJson, toJson, record, required, List.lookup_cons]

/-- A reply comes back if its value does. -/
theorem Reply.ofJson_toJson {α : Type} {write : α → Json} {read : Json → Read α} (h : ∀ a, read (write a) = .ok a)
    (r : Reply α) : ofJson read (r.toJson write) = .ok r := by
  simp [ofJson, toJson, record, required, List.lookup_cons, h]

/-! ## Tagged values -/

theorem Uri.Fault.ofJson_toJson (e : Uri.Fault) : ofJson e.toJson = .ok e := by
  cases e <;> simp [ofJson, toJson, tagged, required, List.lookup_cons, content, noContent, Except.map]

theorem SourceError.ofJson_toJson (e : SourceError) : ofJson e.toJson = .ok e := by
  cases e <;> simp [ofJson, toJson, tag, details, tagged, required, List.lookup_cons, content, Except.map]

/-- The tag of an event stands among its fields, and is taken out before these are read. -/
theorem VolumeEvent.ofJson_toJson (e : VolumeEvent) : ofJson e.toJson = .ok e := by
  cases e <;>
    simp [ofJson, toJson, takeTag, required, List.lookup_cons, record, VolumeReport.ofJson, Except.map]

namespace FsError

/-- The text that a cause carries, if it carries one. -/
def text? (e : FsError) : Option String :=
  match e.details with
  | some (.str what) => some what
  | _ => none

/-- Whether a cause is fit to be written: its text, if it has one, is not empty. -/
def Legible (e : FsError) : Prop := e.text? ≠ some ""

instance (e : FsError) : Decidable e.Legible := inferInstanceAs (Decidable (_ ≠ _))

theorem text_str {what : String} (h : what ≠ "") : text (.str what) = .ok what := by
  simp [text, h]

theorem ne_of_text {j : Json} {what : String} (h : text j = .ok what) : what ≠ "" := by
  obtain ⟨s, -, hs⟩ := Json.bind_eq_ok.mp h
  split at hs
  · cases hs
  · next hne =>
    cases hs
    simpa using hne

/-- A legible cause comes back, wherever it stands. -/
theorem read_toJson {readTag : Json → Read String} (hread : ∀ s, readTag (.str s) = .ok s) {e : FsError}
    (h : e.Legible) : read readTag e.toJson = .ok e := by
  cases e <;>
    simp_all [Legible, text?, details, toJson, tag, read, tagged, required, List.lookup_cons, content, noContent,
      text_str, Except.map]

/-- A cause with a text that is not empty is legible. -/
theorem legible_of_text? {e : FsError} {what : String} (h : e.text? = some what) (hne : what ≠ "") : e.Legible := by
  rw [Legible, h]
  exact fun heq => hne (Option.some.inj heq)

/-- A cause that was made of a text that was read is legible. -/
theorem legible_of_content {make : String → FsError} {found : Option Json} {e : FsError}
    (h : (content text found).map make = .ok e) (hmake : ∀ what, (make what).text? = some what) : e.Legible := by
  obtain ⟨what, hcontent, rfl⟩ := map_eq_ok.mp h
  obtain ⟨j, hj⟩ := content_eq_ok hcontent
  exact legible_of_text? (hmake what) (ne_of_text hj)

/-- No other cause is accepted. -/
theorem legible_of_read {readTag : Json → Read String} {j : Json} {e : FsError} (h : read readTag j = .ok e) :
    e.Legible := by
  obtain ⟨name, found, hfound⟩ := tagged_eq_ok h
  split at hfound
  all_goals first
    | exact legible_of_content hfound fun _ => rfl
    | exact noContent_eq_ok hfound ▸ by decide
    | skip
  · obtain ⟨fd, -, rfl⟩ := map_eq_ok.mp hfound
    exact Option.some_ne_none _ |>.symm
  · cases hfound

theorem faithful : Faithful (fun e => some e.toJson) ofJson Legible :=
  .of_fit (fun e h => ⟨e.toJson, rfl, read_toJson constant_str h⟩) fun _ _ => legible_of_read

end FsError

namespace ServiceError

/-- Whether a cause is fit to be written: if it passes one of the filesystem on, that one is. -/
def Legible (e : ServiceError) : Prop := ∀ cause, e = .platform cause → cause.Legible

theorem heldConstant_str (s : String) : heldConstant (.str s) = .ok s := rfl

theorem ofJson_toJson {e : ServiceError} (h : e.Legible) : ofJson e.toJson = .ok e := by
  cases e with
  | platform cause =>
    have hcause : FsError.read heldConstant cause.toJson = .ok cause :=
      FsError.read_toJson heldConstant_str (h cause rfl)
    simp [ofJson, toJson, tag, details, tagged, required, List.lookup_cons, content, innerTag, hcause, Except.map]
  | _ => simp [ofJson, toJson, tag, details, tagged, required, List.lookup_cons, content, Except.map]

theorem legible_of_ofJson {j : Json} {e : ServiceError} (h : ofJson j = .ok e) : e.Legible := by
  rintro cause rfl
  obtain ⟨name, found, hfound⟩ := tagged_eq_ok h
  split at hfound
  case h_5 =>
    obtain ⟨read, hcontent, heq⟩ := map_eq_ok.mp hfound
    obtain ⟨value, hvalue⟩ := content_eq_ok hcontent
    cases heq
    exact FsError.legible_of_read hvalue
  case h_6 => cases hfound
  all_goals
    obtain ⟨what, -, heq⟩ := map_eq_ok.mp hfound
    cases heq

theorem faithful : Faithful (fun e => some e.toJson) ofJson Legible :=
  .of_fit (fun e h => ⟨e.toJson, rfl, ofJson_toJson h⟩) fun _ _ => legible_of_ofJson

end ServiceError

/-! ## Records that leave fields out -/

namespace Filter

/-- The fields of the criteria that a filter states. -/
def stated (f : Filter) : List (String × Json) :=
  (if f.displayNames.isEmpty then [] else [("display_names", ofStrings f.displayNames)]) ++
    (if f.excludeHidden then [("exclude_hidden", .bool true)] else []) ++
    (if f.minSize = 0 then [] else [("min_size", ofWord64 f.minSize)]) ++
    (if f.suffixes.isEmpty then [] else [("suffixes", ofStrings f.suffixes)])

theorem lookup_stated (f : Filter) :
    f.stated.lookup "suffixes" = (if f.suffixes.isEmpty then none else some (ofStrings f.suffixes)) ∧
    f.stated.lookup "display_names" = (if f.displayNames.isEmpty then none else some (ofStrings f.displayNames)) ∧
    f.stated.lookup "min_size" = (if f.minSize = 0 then none else some (ofWord64 f.minSize)) ∧
    f.stated.lookup "exclude_hidden" = (if f.excludeHidden = false then none else some (.bool true)) := by
  refine ⟨?_, ?_, ?_, ?_⟩
  · simp [stated, List.lookup_append, apply_ite (List.lookup _), List.lookup_cons]
  · simp [stated, List.lookup_append, apply_ite (List.lookup _), List.lookup_cons]
  · simp [stated, List.lookup_append, apply_ite (List.lookup _), List.lookup_cons]
  · cases hhidden : f.excludeHidden <;>
      simp [stated, List.lookup_append, apply_ite (List.lookup _), List.lookup_cons, hhidden]

/-- A criterion is left out exactly if it is not stated. -/
theorem ofJson_toJson (f : Filter) : ofJson f.toJson = .ok f := by
  have hjson : f.toJson = .obj f.stated := rfl
  obtain ⟨hsuffixes, hnames, hsize, hhidden⟩ := f.lookup_stated
  rw [hjson, ofJson, record_lenient,
    optional_of_lookup hsuffixes (fun _ => list_ofStrings _) List.isEmpty_iff.mp,
    optional_of_lookup hnames (fun _ => list_ofStrings _) List.isEmpty_iff.mp,
    optional_of_lookup hsize (fun _ => word64_ofWord64 _) id,
    optional_of_lookup hhidden boolean_true id]
  rfl

end Filter

namespace OpenMode

variable {key : String} {b : Bool}

/-- The fields of the wishes among some flags. -/
def wished (flags : List (String × Bool)) : List (String × Json) :=
  (flags.filter (·.2)).map fun (name, value) => (name, .bool value)

theorem mem_wished {flags : List (String × Bool)} {field : String × Json} (h : field ∈ wished flags) :
    (field.1, true) ∈ flags ∧ field.2 = .bool true := by
  obtain ⟨⟨name, value⟩, hmem, rfl⟩ := List.mem_map.mp h
  obtain ⟨hflag, hvalue⟩ := List.mem_filter.mp hmem
  obtain rfl : value = true := hvalue
  exact ⟨hflag, rfl⟩

/-- A wish is found under the name of its flag, and where there is none nothing is found. -/
theorem lookup_wished {flags : List (String × Bool)} (hkeys : (flags.map Prod.fst).Nodup) (h : (key, b) ∈ flags) :
    (wished flags).lookup key = if b = false then none else some (.bool true) := by
  cases hfound : (wished flags).lookup key with
  | none =>
    rw [if_pos]
    rw [← Bool.not_eq_true]
    rintro rfl
    have hmem : (key, Json.bool true) ∈ wished flags := List.mem_map.mpr ⟨(key, true), List.mem_filter.mpr ⟨h, rfl⟩, rfl⟩
    simpa using List.lookup_eq_none_iff.mp hfound _ hmem
  | some value =>
    obtain ⟨hflag, hvalue⟩ := mem_wished (mem_of_lookup hfound)
    have hsame := List.inj_on_of_nodup_map hkeys h hflag rfl
    cases hsame
    exact congrArg some hvalue

/-- A wish is left out exactly if there is none. -/
theorem ofJson_toJson (m : OpenMode) : ofJson m.toJson = .ok m := by
  have hjson : m.toJson = .obj (wished m.flags) := rfl
  have hdeclared : ∀ field ∈ wished m.flags, field.1 ∈ declared := by
    intro field hfield
    obtain ⟨hflag, -⟩ := mem_wished hfield
    have hnames : ∀ name ∈ m.flags.map Prod.fst, name ∈ declared := by simp [flags, declared]
    exact hnames _ (List.mem_map_of_mem hflag)
  have hkeys : (m.flags.map Prod.fst).Nodup := by simp [flags]
  have hflag : ∀ flag ∈ m.flags, Json.optional (wished m.flags) flag.1 boolean false = .ok flag.2 :=
    fun _ h => optional_of_lookup (lookup_wished hkeys h) boolean_true id
  simp only [flags, List.forall_mem_cons] at hflag
  obtain ⟨happend, hcreate, hnew, hread, htruncate, hwrite, -⟩ := hflag
  rw [hjson, ofJson, record_obj hdeclared]
  simp only [flags, happend, hcreate, hnew, hread, htruncate, hwrite, ok_bind]

end OpenMode

namespace Stat

/-- Whether a time is fit to be written: it is not before the epoch, and a word of 64 bits holds it. -/
def Timely (t : Timestamp) : Prop := 0 ≤ t ∧ t < UInt64.size

theorem timeToJson_eq {t : Timestamp} (h : Timely t) : timeToJson t = some (.int t) := by
  rw [timeToJson, if_neg (by simpa using h.1), Int.emod_eq_of_lt h.1 h.2]

theorem timeOfJson_int {t : Timestamp} (h : Timely t) : timeOfJson (.int t) = .ok t :=
  between_int ⟨h.1, Int.le_sub_one_of_lt h.2⟩

theorem timely_of_timeOfJson {j : Json} {t : Timestamp} (h : timeOfJson j = .ok t) : Timely t := by
  obtain ⟨hlow, hhigh⟩ := between_eq_ok h
  exact ⟨hlow, Int.lt_of_le_sub_one hhigh⟩

/-- Whether a stat record is fit to be written: its times are. -/
def Writable (s : Stat) : Prop := Timely s.modified ∧ Timely s.accessed ∧ Timely s.changed

/-- A record whose times are fit to be written comes back, also where its size is left out. -/
theorem returns {s : Stat} (h : s.Writable) : Returns toJson? ofJson s := by
  obtain ⟨hmodified, haccessed, hchanged⟩ := h
  rw [Returns, toJson?, timeToJson_eq hmodified, timeToJson_eq haccessed, timeToJson_eq hchanged]
  refine ⟨_, rfl, ?_⟩
  obtain ⟨kind, size, mode, ino, uid, gid, modified, accessed, changed⟩ := s
  by_cases hsize : size = 0
  · subst hsize
    simp [ofJson, record, declared, Json.required, Json.optional, List.lookup_cons, FileKind.ofJson_toJson,
      timeOfJson_int hmodified, timeOfJson_int haccessed, timeOfJson_int hchanged]
  · simp [ofJson, record, declared, Json.required, Json.optional, List.lookup_cons, FileKind.ofJson_toJson,
      timeOfJson_int hmodified, timeOfJson_int haccessed, timeOfJson_int hchanged, hsize]

theorem writable_of_ofJson {j : Json} {s : Stat} (h : ofJson j = .ok s) : s.Writable := by
  obtain ⟨fields, hfields⟩ := record_eq_ok h
  simp only [Json.bind_eq_ok] at hfields
  obtain ⟨kind, -, size, -, mode, -, ino, -, uid, -, gid, -, modified, hmodified, accessed, haccessed, changed,
    hchanged, heq⟩ := hfields
  cases heq
  obtain ⟨_, hmodified⟩ := required_eq_ok hmodified
  obtain ⟨_, haccessed⟩ := required_eq_ok haccessed
  obtain ⟨_, hchanged⟩ := required_eq_ok hchanged
  exact ⟨timely_of_timeOfJson hmodified, timely_of_timeOfJson haccessed, timely_of_timeOfJson hchanged⟩

theorem faithful : Faithful toJson? ofJson Writable :=
  .of_fit (fun _ => returns) fun _ _ => writable_of_ofJson

end Stat

namespace Settings

/-- Whether settings are fit to be written: the paths of their directories are text. -/
def Textual (s : Settings) : Prop := s.storagePath.text?.isSome ∧ s.volumeDir.text?.isSome

instance (s : Settings) : Decidable s.Textual := inferInstanceAs (Decidable (_ ∧ _))

theorem pathOfJson_str (s : String) : pathOfJson (.str s) = .ok (.ofText s) := rfl

/-- A directory that is read, or else the one that stands in for it, has a path in text. -/
theorem isSome_of_optional {fields : List (String × Json)} {key : String} {absent p : Path}
    (h : Json.optional fields key pathOfJson absent = .ok p) (habsent : absent.text?.isSome) :
    p.text?.isSome := by
  rcases optional_eq_ok h with rfl | ⟨j, hj⟩
  · exact habsent
  · obtain ⟨s, -, heq⟩ := Json.bind_eq_ok.mp hj
    cases heq
    rw [Path.text?_ofText]
    rfl

theorem returns {s : Settings} (h : s.Textual) : Returns toJson? ofJson s := by
  obtain ⟨storage, hstorage⟩ := Option.isSome_iff_exists.mp h.1
  obtain ⟨volumes, hvolumes⟩ := Option.isSome_iff_exists.mp h.2
  rw [Returns, toJson?, hstorage, hvolumes]
  refine ⟨_, rfl, ?_⟩
  simp [ofJson, record, Json.optional, List.lookup_cons, pathOfJson_str, Path.ofText_of_text? hstorage,
    Path.ofText_of_text? hvolumes]

theorem textual_of_ofJson {j : Json} {s : Settings} (h : ofJson j = .ok s) : s.Textual := by
  obtain ⟨fields, hfields⟩ := record_eq_ok h
  simp only [Json.bind_eq_ok] at hfields
  obtain ⟨storage, hstorage, volumes, hvolumes, bundle, -, trace, -, interval, -, heq⟩ := hfields
  cases heq
  have hdefault : default.Textual := by decide +kernel
  exact ⟨isSome_of_optional hstorage hdefault.1, isSome_of_optional hvolumes hdefault.2⟩

theorem faithful : Faithful toJson? ofJson Textual :=
  .of_fit (fun _ => returns) fun _ _ => textual_of_ofJson

end Settings

namespace Entry

theorem nameOfJson_str {name : String} (h : checkName name = .ok ()) : nameOfJson (.str name) = .ok name := by
  simp [nameOfJson, h]

theorem checkName_of_nameOfJson {j : Json} {name : String} (h : nameOfJson j = .ok name) :
    checkName name = .ok () := by
  obtain ⟨s, -, hs⟩ := Json.bind_eq_ok.mp h
  split at hs
  · next hname =>
    cases hs
    exact hname
  · cases hs

/-- An entry whose name passes the check comes back, also where its kind is left out. -/
theorem ofJson_toJson {e : Entry} (h : checkName e.name = .ok ()) : ofJson e.toJson = .ok e := by
  obtain ⟨name, kind⟩ := e
  have hname := nameOfJson_str h
  by_cases hkind : kind = .unknown
  · subst hkind
    simp [toJson, ofJson, record, checkField, Json.required, Json.optional, List.lookup_cons, hname]
  · simp [toJson, ofJson, record, checkField, Json.required, Json.optional, List.lookup_cons, hname, hkind,
      FileKind.ofJson_toJson]

theorem checkName_of_ofJson {j : Json} {e : Entry} (h : ofJson j = .ok e) : checkName e.name = .ok () := by
  obtain ⟨fields, hfields⟩ := record_eq_ok h
  simp only [Json.bind_eq_ok] at hfields
  obtain ⟨_, -, name, hname, kind, -, heq⟩ := hfields
  cases heq
  obtain ⟨_, hname⟩ := required_eq_ok hname
  exact checkName_of_nameOfJson hname

theorem faithful : Faithful (fun e => some e.toJson) ofJson fun e => checkName e.name = .ok () :=
  .of_fit (fun e h => ⟨e.toJson, rfl, ofJson_toJson h⟩) fun _ _ => checkName_of_ofJson

end Entry

/-! ## All of them -/

end FileProvider
