import FileProvider.Proofs.Run

/-!
# Operations that always end in the same way

What a service reads from a filesystem may leave a trace there, in a log or a counter, and still be the
same at every reading. `Gives` says so of one operation: as long as an invariant holds it ends with the same
result, and keeps the invariant. Results go from one part of an operation to the next, so that what a whole
operation gives can be computed without its states.
-/

set_option autoImplicit false

namespace FileProvider

variable {σ τ ε δ α β : Type}

/-- Whether an operation ends with a given result from every state in which an invariant holds, and keeps
the invariant. -/
def Gives (inv : σ → Prop) (x : EStateM ε σ α) (r : Except ε α) : Prop :=
  ∀ s, inv s → ∃ t, inv t ∧ x s = Step.ofExcept r t

namespace Gives

variable {inv : σ → Prop}

theorem pure (a : α) : Gives inv (Pure.pure a : EStateM ε σ α) (.ok a) := fun s hs => ⟨s, hs, rfl⟩

/-- What comes second is given what came first. -/
theorem bind {x : EStateM ε σ α} {f : α → EStateM ε σ β} {a : α} {r : Except ε β} (hx : Gives inv x (.ok a))
    (hf : Gives inv (f a) r) : Gives inv (x >>= f) r := by
  intro s hs
  obtain ⟨t, ht, hxs⟩ := hx s hs
  obtain ⟨u, hu, hfs⟩ := hf t ht
  refine ⟨u, hu, ?_⟩
  rw [bind_apply, hxs]
  exact hfs

/-- Nothing comes after a failure. -/
theorem bind_error {x : EStateM ε σ α} {f : α → EStateM ε σ β} {e : ε} (hx : Gives inv x (.error e)) :
    Gives inv (x >>= f) (.error e) := by
  intro s hs
  obtain ⟨t, ht, hxs⟩ := hx s hs
  refine ⟨t, ht, ?_⟩
  rw [bind_apply, hxs]
  rfl

theorem ofStep {x : Step σ ε α} {r : Except ε α} (hx : Gives inv x r) :
    Gives inv (Run.ofStep x) (r.mapError .failed) := by
  intro s hs
  obtain ⟨t, ht, hxs⟩ := hx s hs
  refine ⟨t, ht, ?_⟩
  rw [Run.ofStep, hxs]
  cases r <;> rfl

/-- A failure that is handed on as a value is no failure. -/
theorem attempt {x : Run σ ε α} {r : Except ε α} (hx : Gives inv x (r.mapError .failed)) :
    Gives inv (x.attempt : Run σ δ (Except ε α)) (.ok r) := by
  intro s hs
  obtain ⟨t, ht, hxs⟩ := hx s hs
  refine ⟨t, ht, ?_⟩
  rw [Run.attempt, hxs]
  cases r <;> rfl

/-- A loop over a list whose turns all give a value. -/
theorem foldlM {f : β → α → EStateM ε σ β} {g : β → α → β} {l : List α}
    (hf : ∀ b, ∀ a ∈ l, Gives inv (f b a) (.ok (g b a))) (b : β) :
    Gives inv (l.foldlM f b) (.ok (l.foldl g b)) := by
  induction l generalizing b with
  | nil => exact pure b
  | cons a l ih =>
    rw [List.foldlM_cons]
    exact (hf b a List.mem_cons_self).bind (ih (fun c d hd => hf c d (List.mem_cons_of_mem a hd)) (g b a))

end Gives

end FileProvider
