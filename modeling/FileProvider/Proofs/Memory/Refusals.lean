import FileProvider.Fs.Refusing
import FileProvider.Proofs.Memory.Change
import FileProvider.Proofs.Memory.Walk
import FileProvider.Proofs.Steady

/-!
# Reading a store of which some calls are refused

Reading a store changes nothing, so that on a backend which refuses some calls for good every look at the
store has one answer, as often as it is taken. A listing and a stat record are answered exactly if the call
is not refused and there is something of the right kind.
-/

set_option autoImplicit false

namespace FileProvider

/-- An operation that leaves a state as it is always ends there as it ends once. -/
theorem Gives.of_keeps {σ ε α : Type} {x : Step σ ε α} {s : σ} (hx : Keeps (· = s) x) :
    Gives (· = s) x (x.outcome s).1 := by
  intro t ht
  obtain rfl : t = s := ht
  have hend := hx t rfl
  unfold Step.outcome
  cases hxs : x t with
  | ok a u =>
    rw [hxs] at hend
    exact ⟨u, hend, rfl⟩
  | error e u =>
    rw [hxs] at hend
    exact ⟨u, hend, rfl⟩

namespace Backend

variable {σ η α : Type} {b : Backend σ η} {refusal : (α : Type) → Call η α → Option FsError} {c : Call η α}

theorem call_refusing_some {cause : FsError} (h : refusal α c = some cause) :
    (b.refusing refusal).call c = throw cause := by
  unfold refusing
  dsimp only
  rw [h]

theorem call_refusing_none (h : refusal α c = none) : (b.refusing refusal).call c = b.call c := by
  unfold refusing
  dsimp only
  rw [h]

/-- A call that is refused keeps everything. -/
theorem keeps_refusing {P : σ → Prop} (hc : Keeps P (b.call c)) : Keeps P ((b.refusing refusal).call c) := by
  cases h : refusal α c with
  | some cause =>
    rw [call_refusing_some h]
    exact .throw cause
  | none =>
    rw [call_refusing_none h]
    exact hc

end Backend

namespace Memory

/-- Which calls are refused, and for what cause. -/
abbrev Refusal : Type 1 := (α : Type) → Call OpenFile α → Option FsError

/-- Refuses the calls of given names on given paths. -/
def Refusal.of (calls : List (String × String)) (cause : FsError) : Refusal := fun _ c =>
  if (c.method, c.subject.text) ∈ calls then some cause else none

variable {refusal : Refusal} {s : Store} {path : Path} {α : Type}

/-- How a call ends on a store if some calls are refused. -/
def answer (refusal : Refusal) (s : Store) (c : Call OpenFile α) : Except FsError α :=
  (((backend.refusing refusal).call c).outcome s).1

/-- Whether a call is answered. -/
def answered (refusal : Refusal) (s : Store) (c : Call OpenFile α) : Bool :=
  match answer refusal s c with
  | .ok _ => true
  | .error _ => false

theorem answered_ok {c : Call OpenFile α} {a : α} (h : answer refusal s c = .ok a) :
    answered refusal s c = true := by
  rw [answered, h]

theorem answered_error {c : Call OpenFile α} {e : FsError} (h : answer refusal s c = .error e) :
    answered refusal s c = false := by
  rw [answered, h]

/-- A call that is answered is not refused, and the store answers it. -/
theorem answer_eq_ok {c : Call OpenFile α} {a : α} (h : answer refusal s c = .ok a) :
    ((backend.call c).outcome s).1 = .ok a := by
  unfold answer at h
  cases hrefused : refusal α c with
  | some cause =>
    rw [Backend.call_refusing_some hrefused] at h
    cases h
  | none => rwa [Backend.call_refusing_none hrefused] at h

theorem gives_stat (refusal : Refusal) (s : Store) (path : Path) :
    Gives (· = s) ((backend.refusing refusal).call (.stat path)) (answer refusal s (.stat path)) :=
  .of_keeps (Backend.keeps_refusing (keeps_stat _ path.location))

theorem gives_list (refusal : Refusal) (s : Store) (path : Path) :
    Gives (· = s) ((backend.refusing refusal).call (.list path)) (answer refusal s (.list path)) :=
  .of_keeps (Backend.keeps_refusing (keeps_list _ path.location))

/-- A stat record that is answered is that of the node at the location. -/
theorem find?_of_stat {stat : Stat} (h : answer refusal s (.stat path) = .ok stat) :
    ∃ node, s.find? path.location = some node ∧ stat = node.stat := by
  have hcall : ((Memory.stat path.location).outcome s).1 = .ok stat := answer_eq_ok h
  rw [Step.outcome, stat_apply] at hcall
  cases hl : s.find? path.location with
  | none =>
    rw [hl] at hcall
    cases hcall
  | some node =>
    rw [hl] at hcall
    exact ⟨node, rfl, (Except.ok.inj hcall).symm⟩

/-- A listing that is answered has the entries of a directory under the names that it lists. -/
theorem isDir_of_list {entries : List Entry} (hs : s.WellFormed)
    (h : answer refusal s (.list path) = .ok entries) :
    s.IsDir path.location ∧ entries.map Entry.name = s.names path.location := by
  have hcall : ((Memory.list path.location).outcome s).1 = .ok entries := answer_eq_ok h
  rw [Step.outcome, list_apply] at hcall
  cases hl : s.find? path.location with
  | none =>
    rw [hl] at hcall
    cases hcall
  | some node =>
    rw [hl] at hcall
    cases node with
    | file ino data => cases hcall
    | dir ino names =>
      refine ⟨⟨ino, names, hl⟩, ?_⟩
      rw [← Except.ok.inj hcall, names_of_list hs hl, Store.names_of_find? hl]
      rfl

end Memory

end FileProvider
