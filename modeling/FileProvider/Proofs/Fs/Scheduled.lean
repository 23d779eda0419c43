import FileProvider.Fs.Scheduled
import FileProvider.Fs.Tree
import FileProvider.Proofs.Run

/-!
# Calls on schedule

A call on a scheduled backend either fails before it has any effect, or ends as the backend itself
answers it. Whether it is on the schedule is not known, so both have to be provided for. On the schedule
that names no call every job ends as it does on the backend itself, so that what holds on every schedule
holds there too.
-/

set_option autoImplicit false

namespace FileProvider.Scheduled

open Run (Ends)

variable {σ η α : Type} {schedule : Nat → Option FsError} {b : Backend σ η}

/-- Every call ends as it does on the backend itself, or fails without an effect. -/
theorem call_cases (schedule : Nat → Option FsError) (b : Backend σ η) (c : Call η α)
    (x : Scheduled σ) :
    (∃ e, (backend schedule b).call c x = .error e ⟨x.inner, x.calls + 1⟩) ∨
    (backend schedule b).call c x = match b.call c x.inner with
      | .ok a t => .ok a ⟨t, x.calls + 1⟩
      | .error e t => .error e ⟨t, x.calls + 1⟩ := by
  have hcall : (backend schedule b).call c x = (count schedule >>= fun _ => inside (b.call c)) x := rfl
  rw [hcall, bind_apply, count]
  cases schedule x.calls with
  | some cause => exact .inl ⟨cause, rfl⟩
  | none =>
    refine .inr ?_
    change inside (b.call c) ⟨x.inner, x.calls + 1⟩ = _
    unfold inside Step.zoom
    cases b.call c x.inner <;> rfl

/-- A call that is all or nothing on the backend itself is so on schedule. -/
theorem ends_run {c : Call η α} {x : Scheduled σ} {ok : α → σ → Prop}
    (h : Atomic (b.call c) x.inner ok) :
    Ends ((backend schedule b).run c) x (fun a y => ok a y.inner) (fun y => y.inner = x.inner) False := by
  rcases call_cases schedule b c x with ⟨e, he⟩ | hcall
  · exact Ends.of_failed (Run.ofStep_error he) rfl
  · rcases h with ⟨e, he⟩ | ⟨a, t, ht, hok⟩
    · rw [he] at hcall
      exact Ends.of_failed (Run.ofStep_error hcall) rfl
    · rw [ht] at hcall
      exact Ends.of_ok (Run.ofStep_ok hcall) hok

/-! ## The schedule that names no call -/

/-- Whether a run on a scheduled backend ends as another one does on the backend itself. -/
def Mirrors {ε : Type} (x : Run (Scheduled σ) ε α) (y : Run σ ε α) : Prop :=
  ∀ s, ∃ calls, x s = match y s.inner with
    | .ok a t => .ok a ⟨t, calls⟩
    | .error e t => .error e ⟨t, calls⟩

namespace Mirrors

variable {ε β : Type}

theorem pure (a : α) : Mirrors (pure a : Run (Scheduled σ) ε α) (Pure.pure a) := fun s => ⟨s.calls, rfl⟩

theorem fail (e : ε) : Mirrors (Run.fail e : Run (Scheduled σ) ε α) (Run.fail e) := fun s => ⟨s.calls, rfl⟩

theorem exhausted : Mirrors (Run.exhausted : Run (Scheduled σ) ε α) Run.exhausted := fun s =>
  ⟨s.calls, rfl⟩

theorem bind {x : Run (Scheduled σ) ε α} {y : Run σ ε α} {f : α → Run (Scheduled σ) ε β}
    {g : α → Run σ ε β} (hx : Mirrors x y) (hf : ∀ a, Mirrors (f a) (g a)) :
    Mirrors (x >>= f) (y >>= g) := by
  intro s
  obtain ⟨calls, hcalls⟩ := hx s
  rw [bind_apply, bind_apply, hcalls]
  cases y s.inner with
  | ok a t => exact hf a ⟨t, calls⟩
  | error e t => exact ⟨calls, rfl⟩

theorem forM {f : β → Run (Scheduled σ) ε Unit} {g : β → Run σ ε Unit}
    (hf : ∀ b, Mirrors (f b) (g b)) (l : List β) : Mirrors (l.forM f) (l.forM g) := by
  induction l with
  | nil => exact pure ()
  | cons b l ih =>
    rw [forM_cons, forM_cons]
    exact (hf b).bind fun _ => ih

/-- What is known about the end of a run on schedule is known about its mirror. -/
theorem ends {x : Run (Scheduled σ) ε α} {y : Run σ ε α} (h : Mirrors x y) {s : Scheduled σ}
    {ok : α → σ → Prop} {bad : σ → Prop} {cut : Prop}
    (hx : Ends x s (fun a t => ok a t.inner) (fun t => bad t.inner) cut) : Ends y s.inner ok bad cut := by
  obtain ⟨calls, hcalls⟩ := h s
  unfold Ends at hx ⊢
  rw [hcalls] at hx
  cases hy : y s.inner with
  | ok a t =>
    rw [hy] at hx
    exact hx
  | error e t =>
    rw [hy] at hx
    cases e <;> exact hx

end Mirrors

/-- The backend `b` on the schedule that names no call. -/
abbrev unfailing (b : Backend σ η) : Backend (Scheduled σ) η := backend (fun _ => none) b

theorem call_unfailing (b : Backend σ η) (c : Call η α) (x : Scheduled σ) :
    (unfailing b).call c x = match b.call c x.inner with
      | .ok a t => .ok a ⟨t, x.calls + 1⟩
      | .error e t => .error e ⟨t, x.calls + 1⟩ := by
  have hcall : (unfailing b).call c x = inside (b.call c) ⟨x.inner, x.calls + 1⟩ := rfl
  rw [hcall]
  unfold inside Step.zoom
  cases b.call c x.inner <;> rfl

theorem mirrors_run (b : Backend σ η) (c : Call η α) : Mirrors ((unfailing b).run c) (b.run c) := by
  intro x
  refine ⟨x.calls + 1, ?_⟩
  unfold Backend.run Run.ofStep
  rw [call_unfailing]
  cases b.call c x.inner <;> rfl

section

variable (hnative : ∀ j, b.native? j = none)

theorem mirrors_removeWalk (d : Nat) (path : Path) :
    Mirrors ((unfailing b).removeWalk d path) (b.removeWalk d path) := by
  induction d generalizing path with
  | zero => exact .exhausted
  | succ d ih =>
    refine (mirrors_run b _).bind fun entries => .bind (.forM (fun entry => ?_) entries) fun _ =>
      mirrors_run b _
    dsimp only
    split
    · exact ih _
    · exact mirrors_run b _

theorem mirrors_roomForFile (target : Path) (conflict : Conflict) :
    Mirrors ((unfailing b).roomForFile target conflict) (b.roomForFile target conflict) := by
  refine (mirrors_run b _).bind fun found => ?_
  split
  · split
    · exact .fail _
    · refine (mirrors_run b _).bind fun stat => ?_
      split
      · exact .fail _
      · exact .pure _
  · exact .pure _

include hnative

theorem mirrors_copy (source target : Path) :
    Mirrors ((unfailing b).copy source target) (b.copy source target) := by
  unfold Backend.copy
  rw [hnative]
  exact (mirrors_run b _).bind fun data => mirrors_run b _

theorem mirrors_removeTree (path : Path) :
    Mirrors ((unfailing b).removeTree path) (b.removeTree path) := by
  unfold Backend.removeTree
  rw [hnative]
  exact fun s => mirrors_removeWalk (b.depth s.inner) path s

theorem mirrors_roomForDir (target : Path) (conflict : Conflict) :
    Mirrors ((unfailing b).roomForDir target conflict) (b.roomForDir target conflict) := by
  refine (mirrors_run b _).bind fun found => ?_
  split
  · refine (mirrors_run b _).bind fun stat => ?_
    split
    · exact .fail _
    · split
      · exact .fail _
      · exact .pure _
      · exact (mirrors_removeTree hnative target).bind fun _ => mirrors_run b _
  · exact mirrors_run b _

/-- A move by copying on which no call fails ends as it does on the backend itself. -/
theorem mirrors_moveWalk (d : Nat) (source target : Path) (conflict : Conflict) :
    Mirrors ((unfailing b).moveWalk d source target conflict) (b.moveWalk d source target conflict) := by
  induction d generalizing source target with
  | zero => exact .exhausted
  | succ d ih =>
    refine (mirrors_run b _).bind fun stat => ?_
    split
    · exact (mirrors_roomForDir hnative target conflict).bind fun _ =>
        (mirrors_run b _).bind fun entries =>
          .bind (.forM (fun entry => ih _ _) entries) fun _ => mirrors_run b _
    · exact (mirrors_roomForFile target conflict).bind fun _ =>
        (mirrors_copy hnative source target).bind fun _ => mirrors_run b _

end

end FileProvider.Scheduled
