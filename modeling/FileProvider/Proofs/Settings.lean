import FileProvider.Proofs.Json.Reading
import FileProvider.Proofs.Path.Readings
import FileProvider.Settings

/-!
# Settings from the environment and from a record

The same choice of settings can be written as environment variables and as a record. `sources_compared` says
what either source makes of it. They differ in two places. A volume directory that is not chosen lies below the
chosen storage directory if it comes from the environment, and below the default one if it comes from a record;
and a poll interval of zero counts as none in the environment only. Everywhere else they agree.
-/

set_option autoImplicit false

namespace FileProvider.Settings

/-! ## Decimal texts -/

theorem digit?_digitChar {d : Nat} (h : d < 10) : digit? d.digitChar = some d := by
  have hdigit : d.digitChar.isDigit = true := by simpa [Nat.isDigit_digitChar] using h
  have hvalue : d.digitChar.toNat - '0'.toNat = d := by
    rw [Nat.toNat_digitChar_of_lt_ten h]
    exact Nat.add_sub_cancel_left 48 d
  rw [digit?, if_pos hdigit, hvalue]

/-- One digit more counts once, and what stands before it ten times. -/
theorem number?_append {digits : List Char} {n d : Nat} (h : number? digits = some n) (hd : d < 10) :
    number? (digits ++ [d.digitChar]) = some (10 * n + d) := by
  have hsome : digits.isEmpty = false := by
    cases digits with
    | nil => cases h
    | cons c rest => rfl
  rw [number?, hsome, if_neg Bool.false_ne_true] at h
  obtain ⟨ds, hds, rfl⟩ := Option.map_eq_some_iff.mp h
  simp [number?, List.mapM_append, hds, digit?_digitChar hd]

theorem number?_toDigits (n : Nat) : number? (Nat.toDigits 10 n) = some n := by
  induction n using Nat.strongRecOn with
  | ind n ih =>
    by_cases hn : n < 10
    · rw [Nat.toDigits_of_lt_base hn]
      simp [number?, digit?_digitChar hn]
    · have hsplit := number?_append (ih (n / 10) (by omega)) (Nat.mod_lt n (by omega : 10 > 0))
      rw [Nat.toDigits_of_base_le (by omega) (by omega), hsplit, Nat.div_add_mod]

/-- Every word of 64 bits has a decimal text, from which it is read. -/
theorem word64?_toString (w : UInt64) : word64? (toString w.toNat) = some w := by
  have hlist : (toString w.toNat).toList = Nat.toDigits 10 w.toNat := by
    simp [Nat.toString_eq_repr]
  have hread := number?_toDigits w.toNat
  have hplus : ∀ rest, Nat.toDigits 10 w.toNat ≠ '+' :: rest := by
    intro rest heq
    rw [heq] at hread
    simp [number?, List.mapM_cons, digit?] at hread
  have hbound : w.toNat < UInt64.size := w.toNat_lt
  unfold word64?
  rw [hlist]
  split
  · next rest heq => exact absurd heq (hplus rest)
  · simp [hread, hbound]

/-! ## Choices -/

/-- Which settings are chosen, and as what. -/
structure Choice where
  storagePath : Option String := none
  volumeDir : Option String := none
  bundleName : Option String := none
  traceJson : Option Bool := none
  pollInterval : Option UInt64 := none

namespace Choice

variable {c : Choice} {given : String → Option String} {fields : List (String × Json)}

/-- Whether environment variables state a choice. A flag is stated by any text, of which two mean that it is set,
and an interval by any of its decimal texts. -/
structure InEnvironment (c : Choice) (given : String → Option String) : Prop where
  storagePath : given "FILEACCESS_STORAGE_PATH" = c.storagePath
  volumeDir : given "FILEACCESS_VOLUME_DIR" = c.volumeDir
  bundleName : given "FILEACCESS_BUNDLE_NAME" = c.bundleName
  traceJson : (given "FILEACCESS_TRACE_JSON").map (fun s => decide (s = "1" ∨ s = "true")) = c.traceJson
  pollInterval : (given "FILEACCESS_POLL_INTERVAL_MS").map word64? = c.pollInterval.map some

/-- Whether the fields of a record state a choice; the record may hold other fields. -/
structure InRecord (c : Choice) (fields : List (String × Json)) : Prop where
  storagePath : fields.lookup "storage_path" = c.storagePath.map .str
  volumeDir : fields.lookup "volume_dir" = c.volumeDir.map .str
  bundleName : fields.lookup "bundle_name" = c.bundleName.map .str
  traceJson : fields.lookup "trace_json" = c.traceJson.map .bool
  pollInterval : fields.lookup "poll_interval_ms" = c.pollInterval.map Json.ofWord64

/-- The variables that state a choice in the plainest way. -/
def environment (c : Choice) : String → Option String
  | "FILEACCESS_STORAGE_PATH" => c.storagePath
  | "FILEACCESS_VOLUME_DIR" => c.volumeDir
  | "FILEACCESS_BUNDLE_NAME" => c.bundleName
  | "FILEACCESS_TRACE_JSON" => c.traceJson.map fun b => if b then "true" else "false"
  | "FILEACCESS_POLL_INTERVAL_MS" => c.pollInterval.map fun w => toString w.toNat
  | _ => none

/-- The fields of those values that are there. -/
def present (values : List (String × Option Json)) : List (String × Json) :=
  values.filterMap fun (key, value) => value.map fun j => (key, j)

/-- The fields of what is chosen, and no others. -/
def record (c : Choice) : List (String × Json) :=
  present [("bundle_name", c.bundleName.map .str), ("poll_interval_ms", c.pollInterval.map Json.ofWord64),
    ("storage_path", c.storagePath.map .str), ("trace_json", c.traceJson.map .bool),
    ("volume_dir", c.volumeDir.map .str)]

theorem lookup_present_of_not_mem {values : List (String × Option Json)} {key : String}
    (h : key ∉ values.map Prod.fst) : (present values).lookup key = none := by
  rw [List.lookup_eq_none_iff]
  intro field hfield
  obtain ⟨⟨k, value⟩, hmem, hvalue⟩ := List.mem_filterMap.mp hfield
  obtain ⟨j, -, rfl⟩ := Option.map_eq_some_iff.mp hvalue
  have hne : key ≠ k := fun heq => h (List.mem_map.mpr ⟨_, hmem, heq.symm⟩)
  simpa using hne

/-- Among fields with different keys a value is found under its own key, if it is there. -/
theorem lookup_present {values : List (String × Option Json)} (h : (values.map Prod.fst).Nodup) {key : String}
    {value : Option Json} (hmem : (key, value) ∈ values) : (present values).lookup key = value := by
  induction values with
  | nil => exact absurd hmem List.not_mem_nil
  | cons first rest ih =>
    obtain ⟨k, v⟩ := first
    obtain ⟨hk, hrest⟩ := List.nodup_cons.mp h
    rcases List.mem_cons.mp hmem with heq | hlater
    · cases heq
      cases value with
      | none =>
        have hnone : (present rest).lookup key = none := lookup_present_of_not_mem hk
        exact hnone
      | some j => exact List.lookup_cons_self
    · have hne : (key == k) = false := by
        rw [beq_eq_false_iff_ne]
        rintro rfl
        exact hk (List.mem_map.mpr ⟨_, hlater, rfl⟩)
      cases v with
      | none => exact ih hrest hlater
      | some j =>
        change ((k, j) :: present rest).lookup key = value
        rw [List.lookup_cons, hne]
        exact ih hrest hlater

/-- Every choice can be stated by variables. -/
theorem inEnvironment_environment (c : Choice) : c.InEnvironment c.environment where
  storagePath := rfl
  volumeDir := rfl
  bundleName := rfl
  traceJson := by
    change (c.traceJson.map fun b => if b then "true" else "false").map _ = c.traceJson
    cases c.traceJson with
    | none => rfl
    | some b => cases b <;> decide
  pollInterval := by
    change (c.pollInterval.map fun w => toString w.toNat).map word64? = c.pollInterval.map some
    rw [Option.map_map]
    congr 1
    funext w
    exact word64?_toString w

/-- Every choice can be stated by a record. -/
theorem inRecord_record (c : Choice) : c.InRecord c.record where
  storagePath := lookup_present (by simp) (by simp)
  volumeDir := lookup_present (by simp) (by simp)
  bundleName := lookup_present (by simp) (by simp)
  traceJson := lookup_present (by simp) (by simp)
  pollInterval := lookup_present (by simp) (by simp)

/-! ## What the sources make of a choice -/

/-- The storage directory that is chosen, or the default one. -/
def storage (c : Choice) : Path := (c.storagePath.map .ofText).getD defaultStorage

/-- The settings of a choice with a poll interval, `volumes` standing in for a directory of volumes. -/
def settings (c : Choice) (volumes : Path) (interval : UInt64) : Settings where
  storagePath := c.storage
  volumeDir := (c.volumeDir.map .ofText).getD volumes
  bundleName := c.bundleName.getD Uri.defaultBundle
  traceJson := c.traceJson.getD false
  pollInterval := interval

/-- The directory of volumes below a storage directory. -/
def volumesBelow (storage : Path) : Path := storage.join "mnt"

theorem components_volumesBelow (storage : Path) :
    (volumesBelow storage).components = storage.components ++ [.name "mnt"] :=
  Path.components_join storage (by decide +kernel)

/-- The interval of a choice that states one by a variable: a text that says zero counts for nothing. -/
theorem InEnvironment.interval (h : c.InEnvironment given) :
    (given "FILEACCESS_POLL_INTERVAL_MS").bind interval? = c.pollInterval.filter (· != 0) := by
  have hpoll := h.pollInterval
  cases hgiven : given "FILEACCESS_POLL_INTERVAL_MS" with
  | none =>
    rw [hgiven, Option.map_none, eq_comm, Option.map_eq_none_iff] at hpoll
    rw [hpoll]
    rfl
  | some s =>
    rw [hgiven, Option.map_some, eq_comm, Option.map_eq_some_iff] at hpoll
    obtain ⟨w, hw, hread⟩ := hpoll
    rw [hw, Option.bind_some, interval?, ← hread]
    by_cases hzero : w = 0 <;> simp [Option.filter, hzero]

theorem InEnvironment.flag (h : c.InEnvironment given) :
    (match given "FILEACCESS_TRACE_JSON" with
      | some s => decide (s = "1") || decide (s = "true")
      | none => false) = c.traceJson.getD false := by
  rw [← h.traceJson]
  cases given "FILEACCESS_TRACE_JSON" with
  | none => rfl
  | some s => simp

theorem ofEnvironment_eq (h : c.InEnvironment given) :
    ofEnvironment given
      = c.settings (volumesBelow c.storage) ((c.pollInterval.filter (· != 0)).getD 2000) := by
  unfold ofEnvironment
  simp only [h.storagePath, h.volumeDir, h.bundleName, h.interval]
  exact congrArg (fun flag => Settings.mk _ _ _ flag _) h.flag

/-- A field that states an optional value is read as that value, or as the one that stands in for it. -/
theorem optional_of_map {α β : Type} {read : Json → Json.Read β} {write : α → Json} {f : α → β} {key : String}
    {value : Option α} (hlookup : fields.lookup key = value.map write) (hread : ∀ a, read (write a) = .ok (f a))
    (absent : β) : Json.optional fields key read absent = .ok ((value.map f).getD absent) := by
  rw [Json.optional, hlookup]
  cases value with
  | none => rfl
  | some a => exact hread a

theorem ofJson_eq (h : c.InRecord fields) :
    ofJson (.obj fields) = .ok (c.settings (volumesBelow defaultStorage) (c.pollInterval.getD 2000)) := by
  have hpath : ∀ s, pathOfJson (.str s) = .ok (Path.ofText s) := fun _ => rfl
  rw [ofJson, Json.record_lenient, optional_of_map h.storagePath hpath, optional_of_map h.volumeDir hpath,
    optional_of_map h.bundleName Json.string_str, optional_of_map h.traceJson Json.boolean_bool,
    optional_of_map h.pollInterval Json.word64_ofWord64, Option.map_id', Option.map_id', Option.map_id']
  rfl

end Choice

/-! ## The comparison -/

/-- Whether two settings are the same; directories are compared step by step, as paths are. -/
structure Same (s t : Settings) : Prop where
  storagePath : s.storagePath.components = t.storagePath.components
  volumeDir : s.volumeDir.components = t.volumeDir.components
  bundleName : s.bundleName = t.bundleName
  traceJson : s.traceJson = t.traceJson
  pollInterval : s.pollInterval = t.pollInterval

variable {c : Choice} {given : String → Option String} {fields : List (String × Json)}

/-- Settings of one choice differ at most in the directory of volumes, if none is chosen, and in the interval. -/
theorem same_settings_iff {volumes volumes' : Path} {interval interval' : UInt64} :
    (c.settings volumes interval).Same (c.settings volumes' interval') ↔
      (c.volumeDir = none → volumes.components = volumes'.components) ∧
      interval = interval' := by
  constructor
  · intro h
    refine ⟨fun hnone => ?_, h.pollInterval⟩
    have hdir := h.volumeDir
    simpa [Choice.settings, hnone] using hdir
  · rintro ⟨hvolumes, hinterval⟩
    refine ⟨rfl, ?_, rfl, rfl, hinterval⟩
    cases hdir : c.volumeDir with
    | none => simpa [Choice.settings, hdir] using hvolumes hdir
    | some dir => simp [Choice.settings, hdir]

/-- What the two sources make of one choice of settings, whatever is chosen. Both accept it. The environment gives
a directory of volumes below the storage directory and never an interval of zero; a record gives a directory of
volumes below the default storage directory, and the interval that it states. So the settings are the same exactly
if a directory of volumes is chosen or the storage directory is the default one, and the interval is not zero. -/
theorem sources_compared (henvironment : c.InEnvironment given) (hrecord : c.InRecord fields) :
    ofEnvironment given
      = c.settings (Choice.volumesBelow c.storage) ((c.pollInterval.filter (· != 0)).getD 2000) ∧
    (ofEnvironment given).pollInterval ≠ 0 ∧
    ∃ s, ofJson (.obj fields) = .ok s ∧
      s = c.settings (Choice.volumesBelow defaultStorage) (c.pollInterval.getD 2000) ∧
      (s.Same (ofEnvironment given) ↔
        (c.volumeDir = none → c.storage.components = defaultStorage.components) ∧
        c.pollInterval ≠ some 0) := by
  have heq := Choice.ofEnvironment_eq henvironment
  have hpositive : (c.pollInterval.filter (· != 0)).getD 2000 ≠ 0 := by
    cases c.pollInterval with
    | none => decide
    | some w => by_cases hzero : w = 0 <;> simp [Option.filter, hzero]
  have hinterval : c.pollInterval.getD 2000 = (c.pollInterval.filter (· != 0)).getD 2000 ↔
      c.pollInterval ≠ some 0 := by
    cases c.pollInterval with
    | none => simp
    | some w => by_cases hzero : w = 0 <;> simp [Option.filter, hzero]
  refine ⟨heq, heq ▸ hpositive, _, Choice.ofJson_eq hrecord, rfl, ?_⟩
  rw [heq, same_settings_iff, hinterval, Choice.components_volumesBelow, Choice.components_volumesBelow,
    List.append_cancel_right_eq, eq_comm (a := defaultStorage.components)]

/-- A storage directory alone, and an interval of zero. -/
theorem sources_compared_storage :
    ∃ s, ofJson (.obj [("poll_interval_ms", .int 0), ("storage_path", .str "/srv/files")]) = .ok s ∧
      s.volumeDir = ⟨"/tmp/file-access-storage/mnt"⟩ ∧ s.pollInterval = 0 ∧
      ∃ e, ofEnvironment (Choice.environment { storagePath := some "/srv/files", pollInterval := some 0 }) = e ∧
        e.volumeDir = ⟨"/srv/files/mnt"⟩ ∧ e.pollInterval = 2000 ∧ ¬ s.Same e := by
  let c : Choice := { storagePath := some "/srv/files", pollInterval := some 0 }
  obtain ⟨heq, -, s, hread, hs, hsame⟩ := sources_compared c.inEnvironment_environment c.inRecord_record
  refine ⟨s, hread, by rw [hs]; decide +kernel, by rw [hs]; rfl, _, rfl, ?_, ?_, fun h => ?_⟩
  · rw [heq]
    decide +kernel
  · rw [heq]
    rfl
  · exact (hsame.mp h).2 rfl

end FileProvider.Settings
