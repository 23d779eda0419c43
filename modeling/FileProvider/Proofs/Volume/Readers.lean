import FileProvider.Proofs.Volume.Background
import FileProvider.Volume.Wiring

/-!
# The inboxes of those who read

What becomes of the inbox of each reader in each change of a hub. A reader that was dropped or stopped has none
any more, and does not come back; a relay's turn takes the first event out of its inbox, and that event alone is
applied.
-/

set_option autoImplicit false

namespace FileProvider

/-- The inbox without its first event. -/
def Inbox.rest (i : Inbox) : Inbox := { i with pending := i.pending.tail }

/-- Whether nothing is left in an inbox and nothing more can arrive. -/
def Inbox.spent (i : Inbox) : Bool := i.pending.isEmpty && !i.connected

/-! ## Readers -/

namespace VolumeHub

variable {h h' : VolumeHub} {reader other : Reader} {f : Inbox → Inbox} {inbox : Inbox} {i : Nat}

/-- Whether there was such a reader at any time. -/
def Knows (h : VolumeHub) : Reader → Prop
  | .listener i => i < h.listeners.length
  | .relay i => i < h.relays.length

theorem knows_of_inbox? (hinbox : h.inbox? reader = some inbox) : h.Knows reader := by
  cases reader with
  | listener i =>
    obtain ⟨l, hl, -⟩ := Option.bind_eq_some_iff.mp hinbox
    exact (List.getElem?_eq_some_iff.mp hl).1
  | relay i =>
    obtain ⟨r, hr, -⟩ := Option.map_eq_some_iff.mp hinbox
    exact (List.getElem?_eq_some_iff.mp (Option.filter_eq_some_iff.mp hr).1).1

theorem Knows.mono (hlisteners : h.listeners.length ≤ h'.listeners.length)
    (hrelays : h.relays.length ≤ h'.relays.length) (hreader : h.Knows reader) : h'.Knows reader := by
  cases reader with
  | listener i => exact Nat.lt_of_lt_of_le hreader hlisteners
  | relay i => exact Nat.lt_of_lt_of_le hreader hrelays

theorem inbox?_withTable (f : VolumeTable → VolumeTable) : (h.withTable f).inbox? other = h.inbox? other := by
  cases other <;> rfl

theorem inbox?_withMounted (f : List VolumeReport → List VolumeReport) :
    (h.withMounted f).inbox? other = h.inbox? other := by
  cases other <;> rfl

theorem inbox?_modify_listener {g : Option Inbox → Option Inbox} (hrelays : h'.relays = h.relays)
    (hlisteners : h'.listeners = h.listeners.modify i g) (hg : g none = none) :
    h'.inbox? other = if other = .listener i then g (h.inbox? other) else h.inbox? other := by
  cases other with
  | relay j => simp [inbox?, hrelays]
  | listener j =>
    by_cases hij : i = j
    · subst hij
      cases hl : h.listeners[i]? with
      | none => simp [inbox?, hlisteners, hl, hg]
      | some l => simp [inbox?, hlisteners, hl]
    · simp [inbox?, hlisteners, hij, Ne.symm hij]

theorem inbox?_modify_relay {g : Relay → Relay} (hlisteners : h'.listeners = h.listeners)
    (hrelays : h'.relays = h.relays.modify i g) :
    h'.inbox? other = if other = .relay i then
        ((h.relays[i]?.map g).filter Relay.running).map Relay.inbox
      else h.inbox? other := by
  cases other with
  | listener j => simp [inbox?, hlisteners]
  | relay j =>
    by_cases hij : i = j
    · subst hij
      simp [inbox?, hrelays]
    · simp [inbox?, hrelays, hij, Ne.symm hij]

theorem inbox?_atInbox : (h.atInbox f reader).inbox? other
    = if other = reader then (h.inbox? other).map f else h.inbox? other := by
  cases reader with
  | listener i => exact inbox?_modify_listener rfl rfl rfl
  | relay i =>
    rw [show (h.atInbox f (.relay i)).inbox? other = _ from inbox?_modify_relay (h := h) rfl rfl]
    by_cases hother : other = .relay i
    · subst hother
      simp only [if_true, inbox?]
      cases h.relays[i]? with
      | none => rfl
      | some r => cases hr : r.running <;> simp [hr, Option.filter]
    · simp [hother]

/-- A change of several inboxes, each of them once, is seen in these. -/
theorem inbox?_atInboxes {readers : List Reader} (hnodup : readers.Nodup) :
    (h.atInboxes f readers).inbox? other
      = if other ∈ readers then (h.inbox? other).map f else h.inbox? other := by
  induction readers generalizing h with
  | nil => simp [atInboxes]
  | cons reader readers ih =>
    obtain ⟨hreader, hreaders⟩ := List.nodup_cons.mp hnodup
    show ((h.atInbox f reader).atInboxes f readers).inbox? other = _
    rw [ih hreaders, inbox?_atInbox]
    by_cases hother : other = reader
    · subst hother
      simp [hreader]
    · simp [hother]

theorem atInboxes_same (f : Inbox → Inbox) (readers : List Reader) (h : VolumeHub) :
    (h.atInboxes f readers).table = h.table ∧ (h.atInboxes f readers).mounted = h.mounted ∧
      (h.atInboxes f readers).listeners.length = h.listeners.length ∧
      (h.atInboxes f readers).relays.length = h.relays.length := by
  induction readers generalizing h with
  | nil => exact ⟨rfl, rfl, rfl, rfl⟩
  | cons reader readers ih =>
    obtain ⟨htable, hmounted, hlisteners, hrelays⟩ := ih (h.atInbox f reader)
    refine ⟨htable.trans ?_, hmounted.trans ?_, hlisteners.trans ?_, hrelays.trans ?_⟩ <;>
      cases reader <;> simp [atInbox]

theorem knows_atInboxes {readers : List Reader} (hreader : h.Knows reader) :
    (h.atInboxes f readers).Knows reader :=
  have hsame := atInboxes_same f readers h
  hreader.mono (Nat.le_of_eq hsame.2.2.1.symm) (Nat.le_of_eq hsame.2.2.2.symm)

theorem getElem?_append_singleton {α : Type} (l : List α) (a : α) (j : Nat) :
    (l ++ [a])[j]? = if j = l.length then some a else l[j]? := by
  grind

theorem inbox?_listen : h.listen.inbox? other
    = if other = .listener h.listeners.length then some .fresh else h.inbox? other := by
  cases other with
  | relay j => rfl
  | listener j =>
    simp only [inbox?, listen, getElem?_append_singleton, Reader.listener.injEq]
    split <;> rfl

theorem inbox?_relay : (h.relay inbox).inbox? other
    = if other = .relay h.relays.length then some inbox else h.inbox? other := by
  cases other with
  | listener j => rfl
  | relay j =>
    simp only [inbox?, relay, getElem?_append_singleton, Reader.relay.injEq]
    split <;> rfl

theorem knows_relay (hreader : h.Knows reader) : (h.relay inbox).Knows reader :=
  hreader.mono (by simp [relay]) (by simp [relay])

theorem knows_listen (hreader : h.Knows reader) : h.listen.Knows reader :=
  hreader.mono (by simp [listen]) (by simp [listen])

theorem inbox?_stop : (h.stop i).inbox? other = if other = .relay i then none else h.inbox? other := by
  rw [show (h.stop i).inbox? other = _ from inbox?_modify_relay (h := h) rfl rfl]
  cases h.relays[i]? <;> rfl

theorem inbox?_drop : (h.drop i).inbox? other = if other = .listener i then none else h.inbox? other :=
  inbox?_modify_listener (g := fun _ => none) rfl rfl rfl

theorem inbox?_clear : (h.clear i).inbox? other
    = if other = .listener i then (h.inbox? other).map Inbox.emptied else h.inbox? other :=
  inbox?_modify_listener rfl rfl rfl

/-! ### One turn of a relay -/

/-- A relay takes the first event out of its inbox. -/
theorem inbox?_advance : (h.advance i).inbox? other
    = if other = .relay i then (h.inbox? other).map Inbox.rest else h.inbox? other := by
  cases hr : h.relays[i]? with
  | none =>
    have hnone : h.inbox? (.relay i) = none := by simp [inbox?, hr]
    by_cases hother : other = .relay i
    · simp [advance, hr, hother, hnone]
    · simp [advance, hr, hother]
  | some r =>
    have hset : (h.advance i).relays = h.relays.modify i fun _ => (r.step h.table).1 := by
      simp [advance, hr, List.modify_eq_set]
    rw [inbox?_modify_relay (by simp [advance, hr]) hset]
    by_cases hother : other = .relay i
    · subst hother
      rw [if_pos rfl, if_pos rfl, inbox?, hr]
      obtain ⟨⟨pending, connected⟩, running⟩ := r
      cases running <;> cases pending <;> rfl
    · rw [if_neg hother, if_neg hother]

/-- It is that event which is applied. -/
theorem table_advance (h : VolumeHub) (i : Nat) : (h.advance i).table
    = ((h.inbox? (.relay i)).bind (·.pending.head?)).elim h.table h.table.apply := by
  rw [advance, inbox?]
  cases h.relays[i]? with
  | none => rfl
  | some r =>
    obtain ⟨⟨pending, connected⟩, running⟩ := r
    cases running <;> cases pending <;> rfl

theorem finished_eq (h : VolumeHub) (i : Nat) : h.finished i = (h.inbox? (.relay i)).all Inbox.spent := by
  rw [finished, inbox?]
  cases h.relays[i]? with
  | none => rfl
  | some r =>
    obtain ⟨inbox, running⟩ := r
    cases running <;> rfl

/-- A new relay leaves the others as they are. -/
theorem finished_relay_of_ne (h : VolumeHub) (inbox : Inbox) {i : Nat} (hi : i ≠ h.relays.length) :
    (h.relay inbox).finished i = h.finished i := by
  rw [finished_eq, inbox?_relay, if_neg (by simpa using hi), ← finished_eq]

/-- A relay for which nothing has arrived does nothing. -/
theorem advance_of_nothing (hnone : ∀ inbox, h.inbox? (.relay i) = some inbox → inbox.pending = []) :
    h.advance i = h := by
  unfold advance
  split
  · next r hr =>
    have hstep : r.step h.table = (r, h.table) := by
      obtain ⟨inbox, running⟩ := r
      cases running with
      | false => rfl
      | true => exact Relay.step_nil (hnone inbox (by rw [inbox?, hr]; rfl))
    obtain ⟨hi, heq⟩ := List.getElem?_eq_some_iff.mp hr
    rw [hstep, ← heq, List.set_getElem_self]
  · rfl

/-- A finished relay does nothing. -/
theorem advance_of_finished (hfinished : h.finished i = true) : h.advance i = h := by
  rw [finished_eq, Option.all_eq_true] at hfinished
  exact advance_of_nothing fun inbox hinbox =>
    List.isEmpty_iff.mp (Bool.and_eq_true_iff.mp (hfinished inbox hinbox)).1

/-- A relay has a first event to apply, or there is nothing for it to do. -/
theorem advance_cases (h : VolumeHub) (i : Nat) :
    (∃ inbox e rest, h.inbox? (.relay i) = some inbox ∧ inbox.pending = e :: rest ∧
        (h.advance i).table = h.table.apply e) ∨ h.advance i = h := by
  cases hinbox : h.inbox? (.relay i) with
  | none => exact .inr (advance_of_nothing fun _ hsome => by rw [hinbox] at hsome; cases hsome)
  | some inbox =>
    cases hpending : inbox.pending with
    | nil =>
      refine .inr (advance_of_nothing fun other hother => ?_)
      cases hinbox.symm.trans hother
      exact hpending
    | cons e rest =>
      refine .inl ⟨inbox, e, rest, rfl, hpending, ?_⟩
      rw [table_advance, hinbox, Option.bind_some, hpending]
      rfl

/-! ### Readers that only go -/

/-- No reader comes back, no inbox is connected or cut off, and what is in an inbox is only read. -/
structure Shrinks (h h' : VolumeHub) : Prop where
  known : ∀ reader, h.Knows reader → h'.Knows reader
  inbox : ∀ reader inbox, h'.inbox? reader = some inbox →
    ∃ old, h.inbox? reader = some old ∧ old.connected = inbox.connected ∧ inbox.pending <:+ old.pending

theorem Shrinks.refl (h : VolumeHub) : Shrinks h h :=
  ⟨fun _ => id, fun _ inbox hinbox => ⟨inbox, hinbox, rfl, List.suffix_refl _⟩⟩

theorem Shrinks.trans {h'' : VolumeHub} (hfirst : Shrinks h h') (hsecond : Shrinks h' h'') : Shrinks h h'' := by
  refine ⟨fun reader => hsecond.known reader ∘ hfirst.known reader, fun reader inbox hinbox => ?_⟩
  obtain ⟨mid, hmid, hconnected, hpending⟩ := hsecond.inbox reader inbox hinbox
  obtain ⟨old, hold, hconnected', hpending'⟩ := hfirst.inbox reader mid hmid
  exact ⟨old, hold, hconnected'.trans hconnected, hpending.trans hpending'⟩

theorem shrinks_of_same (hlisteners : h'.listeners = h.listeners) (hrelays : h'.relays = h.relays) :
    Shrinks h h' := by
  obtain ⟨table, mounted, listeners, relays⟩ := h'
  cases hlisteners
  cases hrelays
  exact ⟨fun reader => by cases reader <;> exact id, fun reader inbox hinbox =>
    ⟨inbox, by cases reader <;> exact hinbox, rfl, List.suffix_refl _⟩⟩

/-- A reader goes. -/
theorem shrinks_of_gone (hknown : ∀ reader, h.Knows reader → h'.Knows reader)
    (hinbox : ∀ other, h'.inbox? other = if other = reader then none else h.inbox? other) : Shrinks h h' := by
  refine ⟨hknown, fun other inbox hother => ?_⟩
  rw [hinbox] at hother
  split at hother
  · cases hother
  · exact ⟨inbox, hother, rfl, List.suffix_refl _⟩

/-- A reader reads. -/
theorem shrinks_of_read (hknown : ∀ reader, h.Knows reader → h'.Knows reader)
    (hinbox : ∀ other, h'.inbox? other = if other = reader then (h.inbox? other).map f else h.inbox? other)
    (hread : ∀ inbox : Inbox, (f inbox).connected = inbox.connected ∧ (f inbox).pending <:+ inbox.pending) :
    Shrinks h h' := by
  refine ⟨hknown, fun other inbox hother => ?_⟩
  rw [hinbox] at hother
  split at hother
  · obtain ⟨old, hold, rfl⟩ := Option.map_eq_some_iff.mp hother
    exact ⟨old, hold, (hread old).1.symm, (hread old).2⟩
  · exact ⟨inbox, hother, rfl, List.suffix_refl _⟩

theorem shrinks_stop (h : VolumeHub) (i : Nat) : Shrinks h (h.stop i) :=
  shrinks_of_gone (fun _ => .mono (Nat.le_refl _) (by simp [stop])) fun _ => inbox?_stop

theorem shrinks_drop (h : VolumeHub) (i : Nat) : Shrinks h (h.drop i) :=
  shrinks_of_gone (fun _ => .mono (by simp [drop]) (Nat.le_refl _)) fun _ => inbox?_drop

theorem shrinks_clear (h : VolumeHub) (i : Nat) : Shrinks h (h.clear i) :=
  shrinks_of_read (fun _ => .mono (by simp [clear]) (Nat.le_refl _)) (fun _ => inbox?_clear)
    fun _ => ⟨rfl, List.nil_suffix⟩

theorem length_relays_advance (h : VolumeHub) (i : Nat) : (h.advance i).relays.length = h.relays.length := by
  unfold advance
  split
  · exact List.length_set
  · rfl

theorem listeners_advance (h : VolumeHub) (i : Nat) : (h.advance i).listeners = h.listeners := by
  unfold advance
  split <;> rfl

theorem shrinks_advance (h : VolumeHub) (i : Nat) : Shrinks h (h.advance i) :=
  shrinks_of_read
    (fun _ => .mono (listeners_advance h i ▸ Nat.le_refl _) (length_relays_advance h i ▸ Nat.le_refl _))
    (fun _ => inbox?_advance) fun inbox => ⟨rfl, List.tail_suffix inbox.pending⟩

/-- A relay that is finished stays so. -/
theorem Shrinks.finished (hshrinks : Shrinks h h') (hfinished : h.finished i = true) : h'.finished i = true := by
  rw [finished_eq, Option.all_eq_true] at hfinished ⊢
  intro inbox hinbox
  obtain ⟨old, hold, hconnected, hpending⟩ := hshrinks.inbox _ inbox hinbox
  obtain ⟨hempty, hcut⟩ := Bool.and_eq_true_iff.mp (hfinished old hold)
  rw [List.isEmpty_iff.mp hempty] at hpending
  rw [Inbox.spent, ← hconnected, hcut, List.suffix_nil.mp hpending]
  rfl

end VolumeHub

end FileProvider
