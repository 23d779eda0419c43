import FileProvider.Fs.Monitored
import FileProvider.Proofs.Service.Move
import FileProvider.Proofs.Uri.Language
import FileProvider.Service.Request

/-!
# The gate

Every request begins with a check of its URIs, and what comes after it never refuses a URI. So a request reaches
the filesystem, the open files and the volumes only with URIs that belong to the language of the addresses; and
the answer tells of an invalid URI exactly if one does not.
-/

set_option autoImplicit false

namespace FileProvider

/-- An answer is the value of a run, or tells why it failed. -/
theorem Reply.ofRun_cases {σ α : Type} {x : Run σ ServiceError α} {s t : σ} {empty : α} {reply : Reply α}
    (h : ofRun empty x s = some (reply, t)) :
    reply.code = StatusCode.success ∨ ∃ e, x s = .error (.failed e) t ∧ reply.code = e.code := by
  cases hx : x s with
  | ok a u =>
    rw [ofRun_ok hx] at h
    cases h
    exact .inl rfl
  | error stop u =>
    cases stop with
    | failed e =>
      rw [ofRun_failed hx] at h
      cases h
      exact .inr ⟨e, rfl, rfl⟩
    | exhausted =>
      rw [ofRun_exhausted hx] at h
      cases h

namespace ServiceError

/-! Only a URI is refused as an invalid URI. -/

theorem code_platform (cause : FsError) : (platform cause).code ≠ 14300002 := by
  cases cause <;> simp [code, FsError.code]

theorem code_alreadyExists (what : String) : (alreadyExists what).code ≠ 14300002 := by
  simp [code]

theorem code_notFound (what : String) : (notFound what).code ≠ 14300002 := by
  simp [code]

theorem code_invalidOperation (what : String) : (invalidOperation what).code ≠ 14300002 := by
  simp [code]

end ServiceError

namespace Service

open ServiceError

variable {σ η α β : Type}

/-! ## What never refuses a URI -/

/-- Whether no failure of an operation is that of an invalid URI. -/
def Admits (x : Op σ η α) : Prop :=
  ∀ s e t, x s = .error (.failed e) t → e.code ≠ 14300002

namespace Admits

theorem pure (a : α) : Admits (pure a : Op σ η α) := by
  intro s e t h
  cases h

theorem get : Admits (get : Op σ η (Service σ η)) := by
  intro s e t h
  cases h

theorem modify (f : Service σ η → Service σ η) : Admits (modify f : Op σ η Unit) := by
  intro s e t h
  cases h

theorem fail {e : ServiceError} (h : e.code ≠ 14300002) : Admits (Run.fail e : Op σ η α) := by
  intro s e' t hfail
  cases hfail
  exact h

theorem bind {x : Op σ η α} {f : α → Op σ η β} (hx : Admits x) (hf : ∀ a, Admits (f a)) :
    Admits (x >>= f) := by
  intro s e t h
  rw [bind_apply] at h
  cases hxs : x s with
  | ok a u =>
    rw [hxs] at h
    exact hf a u e t h
  | error e' u =>
    rw [hxs] at h
    cases h
    exact hx s e t hxs

/-- An operation the failures of which are all renamed. -/
theorem mapError {ε : Type} {f : ε → ServiceError} (hf : ∀ e, (f e).code ≠ 14300002)
    (x : Run (Service σ η) ε α) : Admits (x.mapError f) := by
  intro s e t h
  unfold Run.mapError at h
  cases hxs : x s with
  | ok a u =>
    rw [hxs] at h
    cases h
  | error e' u =>
    rw [hxs] at h
    cases e' with
    | failed e' =>
      cases h
      exact hf e'
    | exhausted => cases h

/-- An operation the failures of which are values. -/
theorem attempt {ε : Type} (x : Run (Service σ η) ε α) : Admits (x.attempt : Op σ η (Except ε α)) := by
  intro s e t h
  unfold Run.attempt at h
  cases hxs : x s with
  | ok a u =>
    rw [hxs] at h
    cases h
  | error e' u =>
    rw [hxs] at h
    cases e' <;> cases h

theorem passOn (x : Run σ FsError α) : Admits (passOn x : Op σ η α) := mapError code_platform _

theorem reportAs (x : Run σ FsError α) : Admits (reportAs x : Op σ η α) :=
  mapError (fun _ => code_invalidOperation _) _

theorem pathText (uri : String) : Admits (pathText uri : Op σ η String) := by
  intro s e t h
  cases h

theorem pathOf (uri : String) : Admits (pathOf uri : Op σ η Path) := (pathText uri).bind fun _ => pure _

/-- A refusal on a condition. -/
theorem refusal {p : Prop} [Decidable p] {e : ServiceError} (h : e.code ≠ 14300002) :
    Admits (if p then Run.fail e else Pure.pure () : Op σ η Unit) := by
  split
  · exact fail h
  · exact pure ()

/-- A refusal on a condition, and what happens otherwise. -/
theorem unlessRefused {p : Prop} [Decidable p] {e : ServiceError} {rest : Unit → Op σ η α}
    (h : e.code ≠ 14300002) (hrest : ∀ u, Admits (rest u)) :
    Admits (if p then Run.fail e >>= rest else rest ()) := by
  split
  · exact (fail h).bind hrest
  · exact hrest ()

end Admits

/-! ## What comes after the check -/

theorem admits_document (b : Backend σ η) (uri : String) (path : Path) (entry : Entry) :
    Admits (document b uri path entry) := (Admits.reportAs _).bind fun _ => .pure _

theorem admits_window (b : Backend σ η) (uri : String) (path : Path) (filter : Option Filter)
    (offset stop position : Nat) (entries : List Entry) :
    Admits (window b uri path filter offset stop position entries) := by
  induction entries generalizing position with
  | nil => exact .pure []
  | cons entry rest ih =>
    rw [window]
    split
    · exact .pure []
    · split
      · exact ih _
      · refine (admits_document b uri path entry).bind fun d => ?_
        split
        · exact (ih _).bind fun _ => .pure _
        · exact ih _

theorem admits_requireTargetDir (b : Backend σ η) (uri : String) : Admits (requireTargetDir b uri) := by
  refine (Admits.pathOf uri).bind fun path => (Admits.attempt _).bind fun result => ?_
  split
  · exact .refusal (code_invalidOperation _)
  · exact .fail (code_invalidOperation _)
  · exact .fail (code_platform _)

theorem admits_requireSource (b : Backend σ η) (path : Path) : Admits (requireSource b path) :=
  (Admits.passOn _).bind fun _ => .refusal (code_invalidOperation _)

theorem admits_transfer (b : Backend σ η) (source target : String) (old new : Path) :
    Admits (transfer b source target old new) := by
  refine Admits.get.bind fun s => ?_
  split
  · exact .reportAs _
  · exact .passOn _

theorem admits_openPath (b : Backend σ η) (path : Path) (mode : OpenMode) :
    Admits ((openPath b path mode).mapError .platform) := .mapError code_platform _

/-! ## The check comes first -/

variable {uri : String} {uris : List String}

/-- Addresses pass. -/
theorem forM_check_ok (h : ∀ uri ∈ uris, Uri.isAddress uri = true) (S : Service σ η) :
    uris.forM check S = .ok () S := by
  induction uris with
  | nil => rfl
  | cons uri uris ih =>
    obtain ⟨huri, huris⟩ := List.forall_mem_cons.mp h
    rw [forM_cons, bind_apply, check, if_pos huri]
    exact ih huris

/-- The first URI that is no address is refused, and nothing else happens. -/
theorem forM_check_failed (h : ∃ uri ∈ uris, Uri.isAddress uri = false) (S : Service σ η) :
    ∃ uri, uris.forM check S = .error (.failed (.invalidUri uri)) S := by
  induction uris with
  | nil => simp at h
  | cons uri uris ih =>
    rw [forM_cons, bind_apply, check]
    cases huri : Uri.isAddress uri with
    | false => exact ⟨uri, rfl⟩
    | true =>
      obtain ⟨other, hother, hno⟩ := h
      rcases List.mem_cons.mp hother with rfl | hmem
      · rw [huri] at hno
        cases hno
      · exact ih ⟨other, hmem, hno⟩

theorem forM_check_one (uri : String) (rest : Op σ η α) :
    ([uri].forM check >>= fun _ => rest) = (check uri >>= fun _ => rest) := by
  rw [forM_cons, bind_assoc]
  rfl

theorem forM_check_two (source target : String) (rest : Op σ η α) :
    ([source, target].forM check >>= fun _ => rest) = (check source >>= fun _ => check target >>= fun _ => rest) := by
  rw [forM_cons, bind_assoc]
  exact congrArg _ (funext fun _ => forM_check_one target rest)

/-- A request begins with the check of its URIs, and goes on with what never refuses one. -/
theorem Request.run_checked (b : Backend σ η) (r : Request α) :
    ∃ rest : Op σ η α, Admits rest ∧ r.run b = (r.uris.forM check >>= fun _ => rest) := by
  cases r with
  | openFile uri bits =>
    refine ⟨_, ?_, (forM_check_one uri _).symm⟩
    exact (Admits.mapError code_platform _).bind fun mode =>
      (Admits.pathOf uri).bind fun path => admits_openPath b path mode
  | createFile parent name =>
    refine ⟨_, ?_, (forM_check_one parent _).symm⟩
    refine (Admits.pathOf _).bind fun path => (Admits.passOn _).bind fun there => ?_
    exact Admits.unlessRefused (code_alreadyExists _) fun _ =>
      (Admits.passOn _).bind fun file => (Admits.modify _).bind fun _ => .pure _
  | createDir parent name =>
    refine ⟨_, ?_, (forM_check_one parent _).symm⟩
    exact (Admits.pathOf _).bind fun path => (Admits.passOn _).bind fun _ => .pure _
  | delete uri =>
    refine ⟨_, ?_, (forM_check_one uri _).symm⟩
    refine (Admits.pathOf uri).bind fun path => (Admits.passOn _).bind fun stat => ?_
    split
    · exact .passOn _
    · exact .passOn _
  | moveFile source target =>
    refine ⟨_, ?_, (forM_check_two source target _).symm⟩
    refine (Admits.pathOf source).bind fun old => (Admits.pathOf _).bind fun new => ?_
    split
    · exact .pure _
    · split
      · exact .fail (code_invalidOperation _)
      · exact (admits_requireSource b old).bind fun _ => (admits_requireTargetDir b target).bind fun _ =>
          (admits_transfer b source target old new).bind fun _ => .pure _
  | rename uri name =>
    refine ⟨_, ?_, (forM_check_one uri _).symm⟩
    exact (Admits.pathOf uri).bind fun source => (Admits.pathOf _).bind fun target =>
      (Admits.passOn _).bind fun _ => .pure _
  | access uri =>
    refine ⟨_, ?_, (forM_check_one uri _).symm⟩
    exact (Admits.pathOf uri).bind fun path => .passOn _
  | list uri offset count filter =>
    refine ⟨_, ?_, (forM_check_one uri _).symm⟩
    refine (Admits.pathOf uri).bind fun path => (Admits.passOn _).bind fun stat => ?_
    exact Admits.unlessRefused (code_invalidOperation _) fun _ =>
      (Admits.reportAs _).bind fun entries => admits_window b uri path _ offset _ 0 entries
  | info uri =>
    refine ⟨_, ?_, (forM_check_one uri _).symm⟩
    exact (Admits.pathText uri).bind fun path => (Admits.passOn _).bind fun stat => .pure _
  | query uri columns =>
    refine ⟨_, ?_, (forM_check_one uri _).symm⟩
    refine (Admits.pathText uri).bind fun path => (Admits.attempt _).bind fun result => ?_
    split
    · exact (Admits.reportAs _).bind fun stat => .passOn _
    · exact .fail (code_notFound _)

/-! ## Answers -/

/-- A request with a URI that is no address fails, whatever the filesystem is, and changes nothing. -/
theorem Request.run_refused {r : Request α} (h : ∃ uri ∈ r.uris, uri ∉ Uri.addresses) (b : Backend σ η)
    (S : Service σ η) : ∃ uri, r.run b S = .error (.failed (.invalidUri uri)) S := by
  obtain ⟨rest, -, hrun⟩ := r.run_checked b
  obtain ⟨uri, hcheck⟩ := forM_check_failed (by simpa [← Uri.isAddress_iff_mem] using h) S
  exact ⟨uri, by rw [hrun, bind_apply, hcheck]⟩

theorem Request.reply_refused {r : Request α} (h : ∃ uri ∈ r.uris, uri ∉ Uri.addresses) (b : Backend σ η)
    (S : Service σ η) : r.reply b S = some (⟨r.empty, 14300002⟩, S) := by
  obtain ⟨uri, hrun⟩ := run_refused h b S
  exact Reply.ofRun_failed hrun r.empty

/-- A request with addresses alone is never refused for a URI. -/
theorem Request.code_of_addresses {r : Request α} (h : ∀ uri ∈ r.uris, uri ∈ Uri.addresses) {b : Backend σ η}
    {S T : Service σ η} {reply : Reply α} (hreply : r.reply b S = some (reply, T)) : reply.code ≠ 14300002 := by
  obtain ⟨rest, hadmits, hrun⟩ := r.run_checked b
  have hcheck := forM_check_ok (fun uri huri => (Uri.isAddress_iff_mem uri).mpr (h uri huri)) S
  have hrest : r.run b S = rest S := by rw [hrun, bind_apply, hcheck]
  rcases Reply.ofRun_cases hreply with hsuccess | ⟨e, hfailed, hcode⟩
  · rw [hsuccess]
    decide
  · rw [hcode]
    exact hadmits S e T (hrest.symm.trans hfailed)

/-- Whether a request calls a monitored filesystem or changes the open files, however it ends. -/
def Request.Reaches (r : Request α) (b : Backend σ η) (S : Service (Monitored σ) η) : Prop :=
  match r.run (Monitored.backend b) S with
  | .ok _ T => T.fs.calls ≠ S.fs.calls ∨ T.files ≠ S.files
  | .error _ T => T.fs.calls ≠ S.fs.calls ∨ T.files ≠ S.files

/-- A request reaches the filesystem or the open files only if every URI that it is given is an address. If one
is not, it answers with the empty value and the code of an invalid URI, and the service stays as it was; and this
is the only case in which it answers with this code. -/
theorem Request.addresses_or_refused (r : Request α) :
    (∀ (σ η : Type) (b : Backend σ η) (S : Service (Monitored σ) η),
        r.Reaches b S → ∀ uri ∈ r.uris, uri ∈ Uri.addresses) ∧
      (∀ (σ η : Type) (b : Backend σ η) (S : Service σ η),
        (∃ uri ∈ r.uris, uri ∉ Uri.addresses) → r.reply b S = some (⟨r.empty, 14300002⟩, S)) ∧
      ∀ (σ η : Type) (b : Backend σ η) (S T : Service σ η) (reply : Reply α),
        r.reply b S = some (reply, T) → (reply.code = 14300002 ↔ ∃ uri ∈ r.uris, uri ∉ Uri.addresses) := by
  refine ⟨fun σ η b S hreaches => ?_, fun σ η b S h => reply_refused h b S, fun σ η b S T reply hreply => ?_⟩
  · by_contra hno
    obtain ⟨uri, hrun⟩ := run_refused (by simpa using hno) (Monitored.backend b) S
    rw [Reaches, hrun] at hreaches
    exact hreaches.elim (· rfl) (· rfl)
  · constructor
    · intro hcode
      by_contra hno
      exact code_of_addresses (by simpa using hno) hreply hcode
    · intro h
      rw [reply_refused h] at hreply
      cases hreply
      rfl

/-- A move is refused for its second URI alone, while an address reaches the filesystem and is answered. -/
theorem Request.addresses_or_refused_moveFile :
    (Request.moveFile "file:///a" "datashare://b").reply Memory.backend (start "app" .empty)
        = some (⟨"", 14300002⟩, start "app" .empty) ∧
      (Request.access "datashare:///a/").Reaches Memory.backend (start "app" (.start 0 .empty)) ∧
      "datashare:///a/" ∈ Uri.addresses ∧
      (Request.access "datashare:///a/").reply Memory.backend (start "app" .empty)
        = some (⟨false, 0⟩, start "app" .empty) ∧
      ¬ ∃ uri ∈ (Request.access "datashare:///a/").uris, uri ∉ Uri.addresses := by
  have hno : "datashare://b" ∉ Uri.addresses := by
    rw [← Uri.isAddress_iff_mem]
    decide +kernel
  have hreaches : (Request.access "datashare:///a/").Reaches Memory.backend (start "app" (.start 0 .empty)) :=
    .inl (by decide +kernel)
  have hreply : (Request.access "datashare:///a/").reply Memory.backend (start "app" .empty)
      = some (⟨false, 0⟩, start "app" .empty) := by
    rfl
  refine ⟨(addresses_or_refused _).2.1 _ _ _ _ ⟨_, List.mem_cons_of_mem _ List.mem_cons_self, hno⟩, hreaches,
    (addresses_or_refused _).1 _ _ _ _ hreaches _ List.mem_cons_self, hreply, ?_⟩
  exact mt ((addresses_or_refused _).2.2 _ _ _ _ _ _ hreply).mpr (by decide)

end Service

end FileProvider
