import FileProvider.Json

/-!
# Reading what was written

Each reader undoes the writer of its kind of value. What holds of a record follows from what holds of its
fields: a field is read as its value if it is written, or if it is left out exactly when its value is the one
that stands in for an absent field.
-/

set_option autoImplicit false

namespace FileProvider.Json

variable {α β : Type} {fields : List (String × Json)} {key : String} {absent a : α} {j : Json}

/-! ## Results of reading -/

@[simp] theorem ok_bind (a : α) (f : α → Read β) : ((.ok a : Read α) >>= f) = f a := rfl

/-- Two readers one after the other accept if both do. -/
theorem bind_eq_ok {x : Read α} {f : α → Read β} {b : β} : (x >>= f) = .ok b ↔ ∃ a, x = .ok a ∧ f a = .ok b := by
  cases x with
  | error e =>
    constructor
    · rintro ⟨⟩
    · rintro ⟨_, ⟨⟩, -⟩
  | ok a => simp

theorem map_eq_ok {x : Read α} {f : α → β} {b : β} : x.map f = .ok b ↔ ∃ a, x = .ok a ∧ f a = b := by
  cases x <;> simp [Except.map]

/-! ## Values -/

@[simp] theorem string_str (s : String) : string (.str s) = .ok s := rfl

@[simp] theorem boolean_bool (b : Bool) : boolean (.bool b) = .ok b := rfl

/-- A flag that is not false is true. -/
theorem boolean_true {b : Bool} (h : ¬ b = false) : boolean (.bool true) = .ok b := by
  rw [Bool.not_eq_false] at h
  rw [h, boolean_bool]

@[simp] theorem constant_str (s : String) : constant (.str s) = .ok s := rfl

@[simp] theorem between_int {low high i : Int} (h : low ≤ i ∧ i ≤ high) : between low high (.int i) = .ok i :=
  if_pos h

@[simp] theorem word32_ofWord32 (w : UInt32) : word32 (ofWord32 w) = .ok w := by
  have hw := w.toNat_lt
  rw [word32, ofWord32, between_int ⟨by omega, by simp only [UInt32.size]; omega⟩]
  simp [Except.map]

@[simp] theorem word64_ofWord64 (w : UInt64) : word64 (ofWord64 w) = .ok w := by
  have hw := w.toNat_lt
  rw [word64, ofWord64, between_int ⟨by omega, by simp only [UInt64.size]; omega⟩]
  simp [Except.map]

@[simp] theorem signed32_ofSigned32 (w : Int32) : signed32 (ofSigned32 w) = .ok w := by
  have hlow := w.le_toInt
  have hhigh := w.toInt_lt
  rw [signed32, ofSigned32, between_int ⟨by omega, by omega⟩]
  simp [Except.map]

@[simp] theorem char_singleton (c : Char) : char (.str (String.singleton c)) = .ok c := by
  simp [char]

@[simp] theorem list_ofStrings (ss : List String) : list string (ofStrings ss) = .ok ss := by
  rw [ofStrings, list]
  induction ss with
  | nil => rfl
  | cons s ss ih =>
    rw [List.map_cons, List.mapM_cons, ih]
    rfl

theorem between_eq_ok {low high i : Int} (h : between low high j = .ok i) : low ≤ i ∧ i ≤ high := by
  unfold between at h
  split at h
  · split at h
    · next hi =>
      cases h
      exact hi
    · cases h
  · cases h

/-! ## Fields -/

theorem mem_of_lookup {value : Json} (h : fields.lookup key = some value) : (key, value) ∈ fields := by
  obtain ⟨front, rest, rfl, -⟩ := List.lookup_eq_some_iff.mp h
  exact List.mem_append_right _ List.mem_cons_self

/-- A field that is left out exactly when it has the value of an absent one is read as its value. -/
theorem optional_of_lookup {read : Json → Read α} {skipped : Prop} [Decidable skipped] {value : Json}
    (hlookup : fields.lookup key = if skipped then none else some value) (hread : ¬ skipped → read value = .ok a)
    (hskip : skipped → a = absent) : optional fields key read absent = .ok a := by
  rw [optional, hlookup]
  split
  · next heq =>
    split at heq
    · cases heq
    · next h =>
      cases heq
      exact hread h
  · next heq =>
    split at heq
    · next h => rw [hskip h]
    · cases heq

/-- Where fields that are not declared do not matter, a record is read from whatever fields there are. -/
theorem record_lenient {declared : List String} {read : List (String × Json) → Read α} :
    record declared false read (.obj fields) = read fields := rfl

/-- A record is read from its fields if all of them are declared. -/
theorem record_obj {declared : List String} {read : List (String × Json) → Read α}
    (h : ∀ field ∈ fields, field.1 ∈ declared) (strict : Bool) :
    record declared strict read (.obj fields) = read fields := by
  have hknown : fields.any (fun field => !declared.contains field.1) = false := by
    simpa using h
  rw [record, hknown, Bool.and_false]
  rfl

/-- What is accepted as a record was read from some fields. -/
theorem record_eq_ok {declared : List String} {strict : Bool} {read : List (String × Json) → Read α}
    (h : record declared strict read j = .ok a) : ∃ fields, read fields = .ok a := by
  unfold record at h
  split at h
  · next fields =>
    split at h
    · cases h
    · exact ⟨fields, h⟩
  · next items =>
    obtain ⟨result, hresult, hlength⟩ := bind_eq_ok.mp h
    split at hlength
    · cases hlength
      exact ⟨_, hresult⟩
    · cases hlength
  · cases h

/-- What is accepted as a tagged value was read for some tag. -/
theorem tagged_eq_ok {readTag : Json → Read String} {tag content : String} {read : String → Option Json → Read α}
    (h : tagged readTag tag content read j = .ok a) : ∃ name details, read name details = .ok a := by
  unfold tagged at h
  split at h
  · obtain ⟨name, -, hread⟩ := bind_eq_ok.mp h
    exact ⟨name, _, hread⟩
  · obtain ⟨name, -, hrest⟩ := bind_eq_ok.mp h
    obtain ⟨result, hread, hsurplus⟩ := bind_eq_ok.mp hrest
    split at hsurplus
    · cases hsurplus
      exact ⟨name, _, hread⟩
    · cases hsurplus
  · cases h

theorem required_eq_ok {read : Json → Read α} (h : required fields key read = .ok a) :
    ∃ value, read value = .ok a := by
  unfold required at h
  split at h
  · exact ⟨_, h⟩
  · cases h

theorem optional_eq_ok {read : Json → Read α} {absent : α} (h : optional fields key read absent = .ok a) :
    a = absent ∨ ∃ value, read value = .ok a := by
  unfold optional at h
  split at h
  · exact .inr ⟨_, h⟩
  · exact .inl (Except.ok.inj h).symm

theorem noContent_eq_ok {result : α} {details : Option Json} (h : noContent result details = .ok a) : a = result := by
  unfold noContent at h
  split at h
  · exact (Except.ok.inj h).symm
  · exact (Except.ok.inj h).symm
  · cases h

theorem content_eq_ok {read : Json → Read α} {details : Option Json} (h : content read details = .ok a) :
    ∃ value, read value = .ok a := by
  cases details with
  | none => cases h
  | some value => exact ⟨value, h⟩

/-! ## Written forms -/

/-- Whether a value has a written form and is read back from it. -/
def Returns (write : α → Option Json) (read : Json → Read α) (a : α) : Prop :=
  ∃ j, write a = some j ∧ read j = .ok a

/-- A writer and a reader fit together: exactly the values that are fit to be written come back, and whatever is
accepted comes back once it is written again. -/
structure Faithful (write : α → Option Json) (read : Json → Read α) (fit : α → Prop) : Prop where
  returns_iff : ∀ a, Returns write read a ↔ fit a
  settles : ∀ j a, read j = .ok a → Returns write read a

/-- It is enough that the values that are fit come back and that nothing else is accepted. -/
theorem Faithful.of_fit {write : α → Option Json} {read : Json → Read α} {fit : α → Prop}
    (hreturns : ∀ a, fit a → Returns write read a) (hfit : ∀ j a, read j = .ok a → fit a) :
    Faithful write read fit where
  returns_iff a := ⟨fun ⟨j, _, hread⟩ => hfit j a hread, hreturns a⟩
  settles j a h := hreturns a (hfit j a h)

/-- Where every value comes back there is nothing else to be accepted. -/
theorem Faithful.of_all {write : α → Json} {read : Json → Read α} (h : ∀ a, read (write a) = .ok a) :
    Faithful (fun a => some (write a)) read fun _ => True :=
  .of_fit (fun a _ => ⟨write a, rfl, h a⟩) fun _ _ _ => trivial

end FileProvider.Json
