import FileProvider.Host.Folder
import FileProvider.Proofs.Host.Walk
import FileProvider.Proofs.Run

/-!
# Looking at the host

A look leaves the host as it is and depends on where its location leads alone. Whether there is an
entry and what it is are two looks: the first does not follow a link at the end, the second does. They
differ exactly for such a link.
-/

set_option autoImplicit false

namespace FileProvider

/-- The code of a cause that is reported for an error does not depend on what the call did. -/
theorem FsError.code_ofIo (e : IoError) (context context' : String) :
    (FsError.ofIo e context).code = (FsError.ofIo e context').code := by
  unfold ofIo
  split <;> first | rfl | (split <;> rfl)

namespace Host

variable {ending : Ending} {l : Location} {h : Host}

theorem place_apply (ending : Ending) (l : Location) (h : Host) :
    place ending l h = match h.resolve ending l with
      | .ok found => .ok found h
      | .error e => .error e h := by
  change Step.ofExcept (h.resolve ending l) h = _
  unfold Step.ofExcept
  cases h.resolve ending l <;> rfl

theorem present_apply (ending : Ending) (l : Location) (h : Host) :
    present ending l h = match h.resolve ending l with
      | .ok (found, some node) => .ok (found, node) h
      | .ok (_, none) => .error (.os Errno.noEntry) h
      | .error e => .error e h := by
  unfold present
  rw [bind_apply, place_apply]
  cases h.resolve ending l with
  | error e => rfl
  | ok found => obtain ⟨p, _ | node⟩ := found <;> rfl

/-- A location that can be asked for is resolved by a walk from the root. -/
theorem resolve_eq_walk (hask : askable l = .ok ()) (h : Host) (ending : Ending) :
    h.resolve ending l = h.walk ending linkLimit [] l := by
  rw [resolve, hask]
  rfl

theorem resolve_eq_error {e : IoError} (hask : askable l = .error e) (h : Host) (ending : Ending) :
    h.resolve ending l = .error e := by
  rw [resolve, hask]
  rfl

/-- What is resolved is resolved by a walk. -/
theorem walks_of_resolve {found : Place} (hfound : h.resolve ending l = .ok found) :
    Walks h ending [] l (.ok found) := by
  cases hask : askable l with
  | error e =>
    rw [resolve_eq_error hask] at hfound
    cases hfound
  | ok _ =>
    rw [resolve_eq_walk hask] at hfound
    exact hfound ▸ walks_walk linkLimit [] l

/-- Resolving with and without following a link at the end comes to the same, unless there is a link at
the end. -/
theorem resolve_followed (h : Host) (l : Location) :
    (∃ p target, h.resolve .kept l = .ok (p, some (.link target))) ∨
      h.resolve .followed l = h.resolve .kept l := by
  cases hask : askable l with
  | error e => exact .inr (by rw [resolve_eq_error hask, resolve_eq_error hask])
  | ok _ =>
    rw [resolve_eq_walk hask, resolve_eq_walk hask]
    exact walk_followed linkLimit [] l

/-- What the host itself is at fault for when it does not say whether there is an entry. -/
inductive Fault : IoError → Prop where
  /-- A name cannot be asked for. -/
  | name (text : String) : Fault (.custom .invalidInput text)
  | nameTooLong : Fault (.os Errno.nameTooLong)
  | tooManyLinks : Fault (.os Errno.tooManyLinks)

/-- What cannot be asked for is refused for a fault. -/
theorem fault_of_askable {e : IoError} (hask : askable l = .error e) : Fault e := by
  unfold askable spellable at hask
  split at hask
  · cases hask
    exact .name _
  · change (if pathLimit < l.path.size then _ else _) = _ at hask
    split at hask
    · cases hask
      exact .nameTooLong
    · cases hask

/-- What cannot be handed to the system is refused as an argument that makes no sense. -/
theorem kind_of_spellable {e : IoError} (hspell : spellable l = .error e) : e.kind = .invalidInput := by
  unfold spellable at hspell
  split at hspell
  · cases hspell
    rfl
  · cases hspell

/-- What can be handed to the system can be asked for unless its path is too long. -/
theorem eq_of_askable (hspell : spellable l = .ok ()) {e : IoError} (hask : askable l = .error e) :
    e = .os Errno.nameTooLong := by
  rw [askable, hspell] at hask
  change (if pathLimit < l.path.size then _ else _) = _ at hask
  split at hask
  · cases hask
    rfl
  · cases hask

/-- What cannot be handed to the system cannot be asked for. -/
theorem askable_of_spellable {e : IoError} (hspell : spellable l = .error e) : askable l = .error e := by
  rw [askable, hspell]
  rfl

/-- A location is not resolved because nothing is there, because of something on the way that is no
directory, or because of a fault. -/
theorem error_of_resolve {e : IoError} (he : h.resolve ending l = .error e) (hending : ending ≠ .created) :
    e = .os Errno.noEntry ∨ e = .os Errno.notADirectory ∨ Fault e := by
  cases hask : askable l with
  | error e' =>
    rw [resolve_eq_error hask] at he
    cases he
    exact .inr (.inr (fault_of_askable hask))
  | ok _ =>
    rw [resolve_eq_walk hask] at he
    have hw : Walks h ending [] l (.error e) := he ▸ walks_walk linkLimit [] l
    cases hw.error hending with
    | noEntry => exact .inl rfl
    | notADirectory => exact .inr (.inl rfl)
    | nameTooLong => exact .inr (.inr .nameTooLong)
    | tooManyLinks => exact .inr (.inr .tooManyLinks)

/-- No fault means that nothing is there. -/
theorem Fault.kind_ne {e : IoError} (he : Fault e) : e.kind ≠ .notFound := by
  cases he <;> simp only [IoError.kind, Errno.nameTooLong, Errno.tooManyLinks] <;> decide

/-- Whether a location ends in a link that leads to nothing. -/
structure Dangling (h : Host) (l : Location) : Prop where
  link : ∃ p target, h.resolve .kept l = .ok (p, some (.link target))
  astray : ∀ p node, h.resolve .followed l ≠ .ok (p, some node)

namespace Folder

variable {base : Location} {path : Path}

/-- Whether there is an entry is answered without following a link at the end. -/
theorem probe_outcome (base : Location) (path : Path) (h : Host) :
    ((backend base).call (.probe path)).outcome h = (match h.resolve .kept (locate base path) with
      | .ok (_, node) => .ok node.isSome
      | .error e =>
        if e.kind = .notFound then .ok false else .error (FsError.ofIo e ("access " ++ path.text)), h) := by
  change (probe base path).outcome h = _
  rw [Step.outcome, probe, present_apply]
  cases h.resolve .kept (locate base path) with
  | ok found =>
    obtain ⟨p, _ | node⟩ := found
    · rfl
    · rfl
  | error e =>
    by_cases hkind : e.kind = .notFound
    · simp only [hkind, ↓reduceIte]
    · simp only [hkind, ↓reduceIte]

/-- What an entry is is answered if its location leads to something. -/
theorem stat_outcome (base : Location) (path : Path) (h : Host) :
    ∃ record, ((backend base).call (.stat path)).outcome h
      = (match h.resolve .followed (locate base path) with
        | .ok (_, some _) => .ok record
        | .ok (_, none) => .error (FsError.ofIo (.os Errno.noEntry) ("metadata " ++ path.text))
        | .error e => .error (FsError.ofIo e ("metadata " ++ path.text)), h) := by
  change ∃ record, (host ("metadata " ++ path.text) (Host.stat (locate base path))).outcome h = _
  rw [Step.outcome, host, Host.stat, bind_apply, present_apply]
  cases h.resolve .followed (locate base path) with
  | ok found =>
    obtain ⟨p, _ | node⟩ := found
    · exact ⟨default, rfl⟩
    · cases node <;> exact ⟨_, rfl⟩
  | error e => exact ⟨default, rfl⟩

end Folder

end Host

end FileProvider
