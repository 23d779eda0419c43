import FileProvider.Run

/-!
# Following steps and runs

A step or a run that is made of two parts ends as its first part does, unless that part gave a value
to the second. `FailsFor` says that an operation keeps an invariant whichever way it ends, and for which
causes it can fail; where the causes do not matter this is `Keeps`. `Ends` says what is known about each of
the three ways in which one run ends. Each has one rule for every way in which operations are put together.
-/

set_option autoImplicit false

namespace FileProvider

variable {σ τ ε δ α β : Type}

/-- The second part of an operation begins where the first one ended with a value. -/
theorem bind_apply (x : EStateM ε σ α) (f : α → EStateM ε σ β) (s : σ) :
    (x >>= f) s = match x s with
      | .ok a t => f a t
      | .error e t => .error e t := by
  change EStateM.bind x f s = _
  unfold EStateM.bind
  cases x s <;> rfl

/-- An operation that gave a value had its first part give one to the second. -/
theorem bind_eq_ok {x : EStateM ε σ α} {f : α → EStateM ε σ β} {s t : σ} {b : β}
    (h : (x >>= f) s = .ok b t) : ∃ a u, x s = .ok a u ∧ f a u = .ok b t := by
  rw [bind_apply] at h
  cases hx : x s with
  | ok a u =>
    rw [hx] at h
    exact ⟨a, u, rfl, h⟩
  | error e u =>
    rw [hx] at h
    cases h

theorem Step.outcome_ok {x : Step σ ε α} {s t : σ} {a : α} (h : x s = .ok a t) :
    x.outcome s = (.ok a, t) := by
  rw [outcome, h]

theorem Step.outcome_error {x : Step σ ε α} {s t : σ} {e : ε} (h : x s = .error e t) :
    x.outcome s = (.error e, t) := by
  rw [outcome, h]

/-- A step whose outcome is a value gave that value. -/
theorem Step.eq_ok_of_outcome {x : Step σ ε α} {s t : σ} {a : α} (h : x.outcome s = (.ok a, t)) :
    x s = .ok a t := by
  unfold Step.outcome at h
  cases hx : x s with
  | ok b u =>
    rw [hx] at h
    obtain ⟨hb, rfl⟩ := Prod.mk.inj h
    rw [Except.ok.inj hb]
  | error e u =>
    rw [hx] at h
    cases h

theorem forM_cons (f : β → EStateM ε σ Unit) (b : β) (l : List β) :
    (b :: l).forM f = (f b >>= fun _ => l.forM f) := rfl

theorem forM_append (f : β → EStateM ε σ Unit) (l k : List β) :
    (l ++ k).forM f = (l.forM f >>= fun _ => k.forM f) := by
  rw [List.forM_eq_forM, List.forM_append]

namespace Run

theorem ofStep_ok {x : Step σ ε α} {s t : σ} {a : α} (h : x s = .ok a t) :
    Run.ofStep x s = .ok a t := by
  rw [ofStep, h]

theorem ofStep_error {x : Step σ ε α} {s t : σ} {e : ε} (h : x s = .error e t) :
    Run.ofStep x s = .error (.failed e) t := by
  rw [ofStep, h]

/-- A step that gave a value as a run gave that value. -/
theorem eq_ok_of_ofStep {x : Step σ ε α} {s t : σ} {a : α} (h : Run.ofStep x s = .ok a t) : x s = .ok a t := by
  unfold ofStep at h
  cases hxs : x s with
  | ok b u =>
    rw [hxs] at h
    cases h
    rfl
  | error e u =>
    rw [hxs] at h
    cases h

theorem outcome_ok {x : Run σ ε α} {s t : σ} {a : α} (h : x s = .ok a t) :
    x.outcome s = some (.ok a, t) := by
  rw [outcome, h]

theorem outcome_failed {x : Run σ ε α} {s t : σ} {e : ε} (h : x s = .error (.failed e) t) :
    x.outcome s = some (.error e, t) := by
  rw [outcome, h]

end Run

/-! ## All or nothing -/

/-- Whether a step either fails and changes nothing, or gives a value and a state for which `ok`
holds. -/
def Atomic (x : Step σ ε α) (s : σ) (ok : α → σ → Prop) : Prop :=
  (∃ e, x s = .error e s) ∨ ∃ a t, x s = .ok a t ∧ ok a t

theorem Atomic.mono {x : Step σ ε α} {s : σ} {ok ok' : α → σ → Prop} (h : Atomic x s ok)
    (hok : ∀ a t, ok a t → ok' a t) : Atomic x s ok' :=
  h.imp id fun ⟨a, t, ht, hat⟩ => ⟨a, t, ht, hok a t hat⟩

theorem Atomic.of_error {x : Step σ ε α} {s : σ} {ok : α → σ → Prop} {e : ε} (h : x s = .error e s) :
    Atomic x s ok := .inl ⟨e, h⟩

theorem Atomic.of_ok {x : Step σ ε α} {s t : σ} {ok : α → σ → Prop} {a : α} (h : x s = .ok a t)
    (hok : ok a t) : Atomic x s ok := .inr ⟨a, t, h, hok⟩

/-- What begins with a look is all or nothing if what comes after the look is. -/
theorem Atomic.look_bind {x : Step σ ε α} {f : α → Step σ ε β} {s : σ} {found : α → Prop}
    {ok : β → σ → Prop} (hx : Atomic x s fun a t => t = s ∧ found a)
    (hf : ∀ a, found a → Atomic (f a) s ok) : Atomic (x >>= f) s ok := by
  rcases hx with ⟨e, he⟩ | ⟨a, t, ha, rfl, hfound⟩
  · exact .of_error (by rw [bind_apply, he])
  · rcases hf a hfound with ⟨e, he⟩ | ⟨b, u, hb, hok⟩
    · exact .of_error (by rw [bind_apply, ha]; exact he)
    · exact .of_ok (by rw [bind_apply, ha]; exact hb) hok

/-- A step that ends where it began only looks. -/
theorem Atomic.of_outcome {x : Step σ ε α} {s : σ} {r : Except ε α} (h : x.outcome s = (r, s)) :
    Atomic x s fun a t => t = s ∧ r = .ok a := by
  unfold Step.outcome at h
  cases hx : x s with
  | ok a t =>
    rw [hx] at h
    obtain ⟨rfl, rfl⟩ := Prod.mk.inj h
    exact .of_ok hx ⟨rfl, rfl⟩
  | error e t =>
    rw [hx] at h
    obtain ⟨rfl, rfl⟩ := Prod.mk.inj h
    exact .of_error hx

theorem Atomic.get_bind {f : σ → Step σ ε β} {s : σ} {ok : β → σ → Prop} (h : Atomic (f s) s ok) :
    Atomic (get >>= f) s ok := h

/-- What holds of the state before a step and of every state that it can lead to holds at its end. -/
theorem Atomic.outcome {x : Step σ ε α} {s : σ} {P : σ → Prop} (h : Atomic x s fun _ t => P t)
    (hs : P s) : P (x.outcome s).2 := by
  unfold Step.outcome
  rcases h with ⟨e, he⟩ | ⟨a, t, ht, hP⟩
  · rw [he]
    exact hs
  · rw [ht]
    exact hP

/-- A step that is all or nothing and was refused left the state as it was. -/
theorem Atomic.unchanged {x : Step σ ε α} {s t : σ} {ok : α → σ → Prop} {e : ε} (h : Atomic x s ok)
    (hrefused : x.outcome s = (.error e, t)) : t = s := by
  unfold Step.outcome at hrefused
  rcases h with ⟨e', he⟩ | ⟨a, u, hu, _⟩
  · rw [he] at hrefused
    exact (Prod.mk.inj hrefused).2.symm
  · rw [hu] at hrefused
    cases (Prod.mk.inj hrefused).1

/-! ## Keeping an invariant and failing for causes of one kind -/

/-- Whether an operation keeps an invariant, whichever way it ends, and fails for causes of one kind
alone. -/
def FailsFor (P : σ → Prop) (Q : ε → Prop) (x : EStateM ε σ α) : Prop :=
  ∀ s, P s → match x s with
    | .ok _ t => P t
    | .error e t => P t ∧ Q e

/-- Whether a run ended for a cause of one kind, unless it was cut off: that is no failure. -/
def Stop.Meets (Q : ε → Prop) : Stop ε → Prop
  | .failed e => Q e
  | .exhausted => True

namespace FailsFor

variable {P : σ → Prop} {Q Q' : ε → Prop}

theorem pure (a : α) : FailsFor P Q (pure a : EStateM ε σ α) := fun _ hs => hs

theorem throw {e : ε} (h : Q e) : FailsFor P Q (throw e : EStateM ε σ α) := fun _ hs => ⟨hs, h⟩

theorem fail {e : ε} (h : Q e) : FailsFor P (Stop.Meets Q) (Run.fail e : Run σ ε α) := fun _ hs => ⟨hs, h⟩

theorem exhausted : FailsFor P (Stop.Meets Q) (Run.exhausted : Run σ ε α) := fun _ hs => ⟨hs, trivial⟩

/-- Without an invariant only the failures count. -/
theorem always_iff {x : EStateM ε σ α} :
    FailsFor (fun _ => True) Q x ↔ ∀ s e t, x s = .error e t → Q e := by
  constructor
  · intro h s e t hxs
    have hend := h s trivial
    rw [hxs] at hend
    exact hend.2
  · intro h s _
    cases hxs : x s with
    | ok a t => exact trivial
    | error e t => exact ⟨trivial, h s e t hxs⟩

theorem mono {x : EStateM ε σ α} (hx : FailsFor P Q x) (hQ : ∀ e, Q e → Q' e) : FailsFor P Q' x := by
  intro s hs
  have hend := hx s hs
  cases hxs : x s with
  | ok a t =>
    rw [hxs] at hend
    exact hend
  | error e t =>
    rw [hxs] at hend
    exact ⟨hend.1, hQ e hend.2⟩

theorem mono_run {x : Run σ ε α} (hx : FailsFor P (Stop.Meets Q) x) (hQ : ∀ e, Q e → Q' e) :
    FailsFor P (Stop.Meets Q') x := by
  refine hx.mono fun e he => ?_
  cases e with
  | failed e => exact hQ e he
  | exhausted => exact he

/-- What comes second need only fail for such causes after what can come first. -/
theorem bind_of_ok {x : EStateM ε σ α} {f : α → EStateM ε σ β} (hx : FailsFor P Q x)
    (hf : ∀ s a t, P s → x s = .ok a t → FailsFor P Q (f a)) : FailsFor P Q (x >>= f) := by
  intro s hs
  have hmid := hx s hs
  rw [bind_apply]
  cases hxs : x s with
  | ok a t =>
    rw [hxs] at hmid
    exact hf s a t hs hxs t hmid
  | error e t =>
    rw [hxs] at hmid
    exact hmid

theorem bind {x : EStateM ε σ α} {f : α → EStateM ε σ β} (hx : FailsFor P Q x)
    (hf : ∀ a, FailsFor P Q (f a)) : FailsFor P Q (x >>= f) := hx.bind_of_ok fun _ a _ _ _ => hf a

theorem forM {f : β → EStateM ε σ Unit} {l : List β} (hf : ∀ b ∈ l, FailsFor P Q (f b)) :
    FailsFor P Q (l.forM f) := by
  induction l with
  | nil => exact pure ()
  | cons b l ih =>
    rw [forM_cons]
    exact (hf b List.mem_cons_self).bind fun _ => ih fun c hc => hf c (List.mem_cons_of_mem _ hc)

theorem ofStep {x : Step σ ε α} (hx : FailsFor P Q x) : FailsFor P (Stop.Meets Q) (Run.ofStep x) := by
  intro s hs
  have hend := hx s hs
  unfold Run.ofStep
  cases hxs : x s with
  | ok a t =>
    rw [hxs] at hend
    exact hend
  | error e t =>
    rw [hxs] at hend
    exact hend

/-- On a part of a larger state a step fails for the same causes. -/
theorem zoom {x : Step σ ε α} {get : τ → σ} {set : σ → τ → τ} (hx : FailsFor (fun _ => True) Q x) :
    FailsFor (fun _ => True) Q (x.zoom get set) := by
  refine always_iff.mpr fun u e v h => ?_
  unfold Step.zoom at h
  cases hxs : x (get u) with
  | ok a t =>
    rw [hxs] at h
    cases h
  | error e' t =>
    rw [hxs] at h
    cases h
    exact always_iff.mp hx _ e t hxs

/-- The cause for which a step was refused is of that kind. -/
theorem step_outcome {x : Step σ ε α} (hx : FailsFor P Q x) {s t : σ} {e : ε} (hs : P s)
    (h : x.outcome s = (.error e, t)) : Q e := by
  have hend := hx s hs
  unfold Step.outcome at h
  cases hxs : x s with
  | ok a u =>
    rw [hxs] at h
    cases h
  | error e' u =>
    rw [hxs] at hend h
    cases h
    exact hend.2

/-- The cause for which a run failed is of that kind. -/
theorem run_outcome {x : Run σ ε α} (hx : FailsFor P (Stop.Meets Q) x) {s t : σ} {e : ε} (hs : P s)
    (h : x.outcome s = some (.error e, t)) : Q e := by
  have hend := hx s hs
  unfold Run.outcome at h
  cases hxs : x s with
  | ok a u =>
    rw [hxs] at h
    cases h
  | error e' u =>
    rw [hxs] at hend h
    cases e' with
    | failed e' =>
      cases h
      exact hend.2
    | exhausted => cases h

end FailsFor

/-! ## Keeping an invariant -/

/-- Whether an operation keeps an invariant, whichever way it ends. -/
def Keeps (P : σ → Prop) (x : EStateM ε σ α) : Prop :=
  ∀ s, P s → match x s with
    | .ok _ t => P t
    | .error _ t => P t

/-- To keep an invariant is all if failures may have any cause. -/
theorem keeps_iff {P : σ → Prop} {x : EStateM ε σ α} : Keeps P x ↔ FailsFor P (fun _ => True) x := by
  refine forall_congr' fun s => imp_congr_right fun _ => ?_
  cases x s with
  | ok a t => exact Iff.rfl
  | error e t => exact ⟨fun h => ⟨h, trivial⟩, And.left⟩

namespace Keeps

variable {P : σ → Prop}

theorem pure (a : α) : Keeps P (pure a : EStateM ε σ α) := fun _ hs => hs

theorem throw (e : ε) : Keeps P (throw e : EStateM ε σ α) := fun _ hs => hs

theorem fail (e : ε) : Keeps P (Run.fail e : Run σ ε α) := fun _ hs => hs

theorem exhausted : Keeps P (Run.exhausted : Run σ ε α) := fun _ hs => hs

/-- What comes second need only keep the invariant after what can come first. -/
theorem bind_of_ok {x : EStateM ε σ α} {f : α → EStateM ε σ β} (hx : Keeps P x)
    (hf : ∀ s a t, P s → x s = .ok a t → Keeps P (f a)) : Keeps P (x >>= f) :=
  keeps_iff.mpr ((keeps_iff.mp hx).bind_of_ok fun s a t hs hxs => keeps_iff.mp (hf s a t hs hxs))

theorem bind {x : EStateM ε σ α} {f : α → EStateM ε σ β} (hx : Keeps P x)
    (hf : ∀ a, Keeps P (f a)) : Keeps P (x >>= f) := hx.bind_of_ok fun _ a _ _ _ => hf a

theorem ofStep {x : Step σ ε α} (hx : Keeps P x) : Keeps P (Run.ofStep x) :=
  keeps_iff.mpr ((keeps_iff.mp hx).ofStep.mono fun _ _ => trivial)

theorem forM {f : β → EStateM ε σ Unit} {l : List β} (hf : ∀ b ∈ l, Keeps P (f b)) :
    Keeps P (l.forM f) := keeps_iff.mpr (.forM fun b hb => keeps_iff.mp (hf b hb))

/-- A step that keeps an invariant ends in a state that has it. -/
theorem step_outcome {x : Step σ ε α} (hx : Keeps P x) {s : σ} (hs : P s) : P (x.outcome s).2 := by
  have hend := hx s hs
  unfold Step.outcome
  cases hxs : x s with
  | ok a t =>
    rw [hxs] at hend
    exact hend
  | error e t =>
    rw [hxs] at hend
    exact hend

theorem of_outcome {x : Step σ ε α} (h : ∀ s, P s → P (x.outcome s).2) : Keeps P x := by
  intro s hs
  have hend := h s hs
  unfold Step.outcome at hend
  cases hxs : x s with
  | ok a t =>
    rw [hxs] at hend
    exact hend
  | error e t =>
    rw [hxs] at hend
    exact hend

/-- A step that is all or nothing keeps what holds of every state that it can lead to. -/
theorem of_atomic {x : Step σ ε α} (h : ∀ s, P s → Atomic x s fun _ t => P t) : Keeps P x :=
  of_outcome fun s hs => (h s hs).outcome hs

/-- A step that only looks keeps everything. -/
theorem of_look {x : Step σ ε α} (h : ∀ s, Atomic x s fun _ t => t = s) : Keeps P x :=
  of_atomic fun s hs => (h s).mono fun _ _ ht => ht ▸ hs

/-- A run that keeps an invariant ends, if it does, in a state that has it. -/
theorem run_outcome {x : Run σ ε α} (hx : Keeps P x) {s t : σ} {r : Except ε α} (hs : P s)
    (h : x.outcome s = some (r, t)) : P t := by
  have hend := hx s hs
  unfold Run.outcome at h
  cases hxs : x s with
  | ok a u =>
    rw [hxs] at hend h
    obtain ⟨_, rfl⟩ := Prod.mk.inj (Option.some.inj h)
    exact hend
  | error e u =>
    rw [hxs] at hend h
    cases e with
    | failed e =>
      obtain ⟨_, rfl⟩ := Prod.mk.inj (Option.some.inj h)
      exact hend
    | exhausted => cases h

end Keeps

/-- An invariant that is kept holds after a step that is all or nothing. -/
theorem Atomic.keep {x : Step σ ε α} {s : σ} {ok : α → σ → Prop} {P : σ → Prop}
    (h : Atomic x s ok) (hkeeps : Keeps P x) (hs : P s) : Atomic x s fun a t => P t ∧ ok a t := by
  have hend := hkeeps s hs
  rcases h with hfailed | ⟨a, t, ht, hok⟩
  · exact .inl hfailed
  · rw [ht] at hend
    exact .inr ⟨a, t, ht, hend, hok⟩

/-- A step that keeps every invariant there is only looks. -/
theorem Keeps.looks {x : Step σ ε α} (h : ∀ P, Keeps P x) (s : σ) : Atomic x s fun _ t => t = s := by
  have hend := h (· = s) s rfl
  cases hx : x s with
  | ok a t =>
    rw [hx] at hend
    exact .inr ⟨a, t, hx, hend⟩
  | error e t =>
    rw [hx] at hend
    exact .inl ⟨e, hend ▸ hx⟩

/-! ## Failing for other causes -/

/-- What always fails for causes of one kind does so where an invariant holds that it keeps. -/
theorem FailsFor.of_keeps {P : σ → Prop} {Q : ε → Prop} {x : EStateM ε σ α} (hkeeps : Keeps P x)
    (hx : FailsFor (fun _ => True) Q x) : FailsFor P Q x := by
  intro s hs
  have hkept := hkeeps s hs
  cases hxs : x s with
  | ok a t =>
    rw [hxs] at hkept
    exact hkept
  | error e t =>
    rw [hxs] at hkept
    exact ⟨hkept, always_iff.mp hx s e t hxs⟩

/-- Whether an operation never fails for one cause. -/
def Avoids (e : ε) (x : EStateM ε σ α) : Prop := ∀ s t, x s ≠ .error e t

theorem avoids_iff {e : ε} {x : EStateM ε σ α} : Avoids e x ↔ FailsFor (fun _ => True) (· ≠ e) x := by
  rw [FailsFor.always_iff]
  constructor
  · rintro h s e' t hxs rfl
    exact h s t hxs
  · exact fun h s t hxs => h s e t hxs rfl

namespace Avoids

variable {e : ε}

theorem pure (a : α) : Avoids e (pure a : EStateM ε σ α) := avoids_iff.mpr (.pure a)

theorem throw {other : ε} (h : other ≠ e) : Avoids e (throw other : EStateM ε σ α) :=
  avoids_iff.mpr (.throw h)

theorem bind {x : EStateM ε σ α} {f : α → EStateM ε σ β} (hx : Avoids e x) (hf : ∀ a, Avoids e (f a)) :
    Avoids e (x >>= f) :=
  avoids_iff.mpr ((avoids_iff.mp hx).bind fun a => avoids_iff.mp (hf a))

end Avoids

/-! ## How a run ends -/

namespace Run

/-- What is known about the end of a run: `ok` about its value and state, `bad` about the state after
a failure, and `cut` if it reached its depth limit. -/
def Ends (x : Run σ ε α) (s : σ) (ok : α → σ → Prop) (bad : σ → Prop) (cut : Prop) : Prop :=
  match x s with
  | .ok a t => ok a t
  | .error (.failed _) t => bad t
  | .error .exhausted _ => cut

namespace Ends

variable {s : σ} {bad : σ → Prop} {cut : Prop}

theorem of_ok {x : Run σ ε α} {ok : α → σ → Prop} {a : α} {t : σ} (hx : x s = .ok a t)
    (h : ok a t) : Ends x s ok bad cut := by
  rw [Ends, hx]
  exact h

theorem of_failed {x : Run σ ε α} {ok : α → σ → Prop} {e : ε} {t : σ}
    (hx : x s = .error (.failed e) t) (h : bad t) : Ends x s ok bad cut := by
  rw [Ends, hx]
  exact h

/-- A step that is all or nothing changes nothing when it fails. -/
theorem of_atomic {x : Step σ ε α} {ok : α → σ → Prop} (h : Atomic x s ok) :
    Ends (Run.ofStep x) s ok (· = s) cut := by
  rcases h with ⟨e, he⟩ | ⟨a, t, ht, hok⟩
  · exact of_failed (ofStep_error he) rfl
  · exact of_ok (ofStep_ok ht) hok

theorem mono {x : Run σ ε α} {ok ok' : α → σ → Prop} {bad' : σ → Prop} {cut' : Prop}
    (h : Ends x s ok bad cut) (hok : ∀ a t, ok a t → ok' a t) (hbad : ∀ t, bad t → bad' t)
    (hcut : cut → cut') : Ends x s ok' bad' cut' := by
  unfold Ends at h ⊢
  cases hx : x s with
  | ok a t =>
    rw [hx] at h
    exact hok a t h
  | error e t =>
    rw [hx] at h
    cases e with
    | failed e => exact hbad t h
    | exhausted => exact hcut h

/-- A run that goes on as another one ends as that does. -/
theorem of_eq {x y : Run σ ε α} {t : σ} {ok : α → σ → Prop} (h : x s = y t)
    (hy : Ends y t ok bad cut) : Ends x s ok bad cut := by
  rw [Ends, h]
  exact hy

/-- An invariant that is kept holds at the end too. -/
theorem keep {x : Run σ ε α} {ok : α → σ → Prop} {P : σ → Prop} (h : Ends x s ok bad cut)
    (hkeeps : Keeps P x) (hs : P s) : Ends x s (fun a t => P t ∧ ok a t) bad cut := by
  have hend := hkeeps s hs
  unfold Ends at h ⊢
  cases hx : x s with
  | ok a t =>
    rw [hx] at h hend
    exact ⟨hend, h⟩
  | error e t =>
    rw [hx] at h
    cases e <;> exact h

theorem bind {x : Run σ ε α} {f : α → Run σ ε β} {ok : β → σ → Prop}
    (h : Ends x s (fun a t => Ends (f a) t ok bad cut) bad cut) : Ends (x >>= f) s ok bad cut := by
  unfold Ends at h ⊢
  rw [bind_apply]
  cases hx : x s with
  | ok a t =>
    rw [hx] at h
    exact h
  | error e t =>
    rw [hx] at h
    cases e <;> exact h

/-- The second part of a run begins with what is known about the first one. -/
theorem andThen {x : Run σ ε α} {f : α → Run σ ε β} {mid : α → σ → Prop} {ok : β → σ → Prop}
    {bad' : σ → Prop} (h : Ends x s mid bad' cut) (hbad : ∀ t, bad' t → bad t)
    (hf : ∀ a t, mid a t → Ends (f a) t ok bad cut) : Ends (x >>= f) s ok bad cut :=
  bind (h.mono hf hbad id)

/-- A loop keeps what each of its turns does; the invariant may speak of the values still to come. -/
theorem forM {f : β → Run σ ε Unit} (inv : List β → σ → Prop)
    (hstep : ∀ b rest t, inv (b :: rest) t → Ends (f b) t (fun _ u => inv rest u) bad cut)
    (l : List β) (h : inv l s) : Ends (l.forM f) s (fun _ t => inv [] t) bad cut := by
  induction l generalizing s with
  | nil => exact of_ok rfl h
  | cons b l ih =>
    rw [forM_cons]
    exact bind ((hstep b l s h).mono (fun _ _ hinv => ih hinv) (fun _ => id) id)

/-- A run that can neither fail nor be cut gives a value. -/
theorem eq_ok {x : Run σ ε α} {ok : α → σ → Prop} (h : Ends x s ok (fun _ => False) cut)
    (hcut : ¬ cut) : ∃ a t, x s = .ok a t ∧ ok a t := by
  unfold Ends at h
  cases hx : x s with
  | ok a t =>
    rw [hx] at h
    exact ⟨a, t, rfl, h⟩
  | error e t =>
    rw [hx] at h
    cases e with
    | failed e => exact h.elim
    | exhausted => exact absurd h hcut

/-- A run that can neither give a value nor fail is cut. -/
theorem eq_exhausted {x : Run σ ε α}
    (h : Ends x s (fun _ _ => False) (fun _ => False) cut) : ∃ t, x s = .error .exhausted t := by
  unfold Ends at h
  cases hx : x s with
  | ok a t =>
    rw [hx] at h
    exact h.elim
  | error e t =>
    rw [hx] at h
    cases e with
    | failed e => exact h.elim
    | exhausted => exact ⟨t, rfl⟩

/-- A run that does not give a value has no outcome that is one. -/
theorem not_ok {x : Run σ ε α} (h : Ends x s (fun _ _ => False) bad cut) (a : α) (t : σ) :
    x.outcome s ≠ some (.ok a, t) := by
  intro hrun
  unfold Ends at h
  unfold Run.outcome at hrun
  cases hx : x s with
  | ok b u =>
    rw [hx] at h
    exact h
  | error e u =>
    rw [hx] at hrun
    cases e <;> cases hrun

/-- A run that neither gives a value nor fails has no outcome. -/
theorem outcome_none {x : Run σ ε α} (h : Ends x s (fun _ _ => False) (fun _ => False) cut) :
    x.outcome s = none := by
  obtain ⟨t, ht⟩ := h.eq_exhausted
  rw [Run.outcome, ht]

/-- A run that cannot be cut gives a value or fails. -/
theorem outcome_cases {x : Run σ ε α} {ok : α → σ → Prop} (h : Ends x s ok bad False) :
    (∃ a t, x.outcome s = some (.ok a, t) ∧ ok a t) ∨
    ∃ e t, x.outcome s = some (.error e, t) ∧ bad t := by
  unfold Ends at h
  unfold Run.outcome
  cases hx : x s with
  | ok a t =>
    rw [hx] at h
    exact .inl ⟨a, t, rfl, h⟩
  | error e t =>
    rw [hx] at h
    cases e with
    | failed e => exact .inr ⟨e, t, rfl, h⟩
    | exhausted => exact h.elim

/-- A run that had an outcome gave a value or failed. -/
theorem of_outcome {x : Run σ ε α} {ok : α → σ → Prop} (h : Ends x s ok bad cut) {r : Except ε α} {t : σ}
    (hrun : x.outcome s = some (r, t)) : (∃ a, r = .ok a ∧ ok a t) ∨ ∃ e, r = .error e ∧ bad t := by
  unfold Ends at h
  unfold Run.outcome at hrun
  cases hx : x s with
  | ok a u =>
    rw [hx] at h hrun
    cases hrun
    exact .inl ⟨a, rfl, h⟩
  | error e u =>
    rw [hx] at h hrun
    cases e with
    | failed e =>
      cases hrun
      exact .inr ⟨e, rfl, h⟩
    | exhausted => cases hrun

/-- A run whose end is known ends if it cannot be cut. -/
theorem outcome {x : Run σ ε α} {post : σ → Prop} (h : Ends x s (fun _ => post) post False) :
    ∃ r t, x.outcome s = some (r, t) ∧ post t := by
  rcases h.outcome_cases with ⟨a, t, hrun, ht⟩ | ⟨e, t, hrun, ht⟩
  · exact ⟨_, t, hrun, ht⟩
  · exact ⟨_, t, hrun, ht⟩

end Ends

end Run

end FileProvider
