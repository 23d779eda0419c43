import FileProvider.Proofs.Volume.Readers

/-!
# What a hub shows

Two hubs show the same if they have the same table and the same mounted volumes, if every listener hears the same,
and if for every relay the same is left to be applied, if anything can be. What a finished relay has in its inbox is
seen by nobody, and need not be the same. Hubs that show the same still do after every call.
-/

set_option autoImplicit false

namespace FileProvider

namespace VolumeHub

variable {h h' : VolumeHub} {inbox : Inbox} {f : Inbox → Inbox} {i : Nat}

/-! ## Hubs that show the same -/

/-- The inbox of a relay that is not finished. -/
def unread? (h : VolumeHub) (i : Nat) : Option Inbox := (h.inbox? (.relay i)).filter fun inbox => !inbox.spent

/-- Two hubs show the same. -/
structure Alike (h h' : VolumeHub) : Prop where
  table : h.table = h'.table
  mounted : h.mounted = h'.mounted
  listeners : h.listeners.length = h'.listeners.length
  relays : h.relays.length = h'.relays.length
  heard : ∀ i, h.inbox? (.listener i) = h'.inbox? (.listener i)
  unread : ∀ i, h.unread? i = h'.unread? i

theorem Alike.refl (h : VolumeHub) : Alike h h := ⟨rfl, rfl, rfl, rfl, fun _ => rfl, fun _ => rfl⟩

theorem Alike.trans {h'' : VolumeHub} (hfirst : Alike h h') (hsecond : Alike h' h'') : Alike h h'' :=
  ⟨hfirst.table.trans hsecond.table, hfirst.mounted.trans hsecond.mounted,
    hfirst.listeners.trans hsecond.listeners, hfirst.relays.trans hsecond.relays,
    fun i => (hfirst.heard i).trans (hsecond.heard i), fun i => (hfirst.unread i).trans (hsecond.unread i)⟩

theorem finished_eq_isNone (h : VolumeHub) (i : Nat) : h.finished i = (h.unread? i).isNone := by
  rw [finished_eq, unread?]
  cases h.inbox? (.relay i) with
  | none => rfl
  | some inbox => cases hspent : inbox.spent <;> simp [Option.filter, hspent]

/-- Relays that show the same are finished at the same time. -/
theorem Alike.finished (halike : Alike h h') (i : Nat) : h.finished i = h'.finished i := by
  rw [finished_eq_isNone, finished_eq_isNone, halike.unread]

/-- Where all inboxes are changed in such a way that a spent one stays as it is, what is left to be applied is changed
so. -/
theorem unread?_of_map (hinbox : h'.inbox? (.relay i) = (h.inbox? (.relay i)).map f)
    (hf : ∀ inbox : Inbox, inbox.spent = true → f inbox = inbox) :
    h'.unread? i = ((h.unread? i).map f).filter fun inbox => !inbox.spent := by
  rw [unread?, hinbox, unread?]
  cases h.inbox? (.relay i) with
  | none => rfl
  | some inbox =>
    cases hspent : inbox.spent with
    | true => simp [Option.filter, hspent, hf inbox hspent]
    | false => simp [Option.filter, hspent]

theorem unread?_of_gone {reader : Reader}
    (hinbox : ∀ other, h'.inbox? other = if other = reader then none else h.inbox? other) :
    h'.unread? i = if Reader.relay i = reader then none else h.unread? i := by
  rw [unread?, hinbox]
  split <;> rfl

/-! ## Everything at once -/

/-- What a relay will apply when it has all its turns. -/
def todo (r : Relay) : List VolumeEvent := if r.running then r.inbox.pending else []

/-- A relay when it has had all its turns. -/
def idled (r : Relay) : Relay := if r.running then { r with inbox := r.inbox.emptied } else r

theorem drain_eq (r : Relay) (t : VolumeTable) : r.drain t = (idled r, t.applyAll (todo r)) := by
  unfold Relay.drain idled todo
  split <;> rfl

theorem drainAll_eq (relays : List Relay) (t : VolumeTable) :
    drainAll relays t = (relays.map idled, t.applyAll (relays.flatMap todo)) := by
  induction relays generalizing t with
  | nil => rfl
  | cons r rest ih =>
    have hfirst : drainAll (r :: rest) t
        = ((r.drain t).1 :: (drainAll rest (r.drain t).2).1, (drainAll rest (r.drain t).2).2) := rfl
    rw [hfirst, ih, drain_eq, List.map_cons, List.flatMap_cons, VolumeTable.applyAll_append]

theorem table_settle (h : VolumeHub) : h.settle.table = h.table.applyAll (h.relays.flatMap todo) := by
  rw [settle, drainAll_eq]

theorem relays_settle (h : VolumeHub) : h.settle.relays = h.relays.map idled := by
  rw [settle, drainAll_eq]

theorem inbox?_settle (h : VolumeHub) (i : Nat) :
    h.settle.inbox? (.relay i) = (h.inbox? (.relay i)).map Inbox.emptied := by
  rw [inbox?, inbox?, relays_settle, List.getElem?_map]
  cases h.relays[i]? with
  | none => rfl
  | some r =>
    obtain ⟨inbox, running⟩ := r
    cases running <;> rfl

/-- What a relay will apply can be seen. -/
theorem getElem?_map_todo (h : VolumeHub) (i : Nat) : (h.relays.map todo)[i]?
    = if i < h.relays.length then some ((h.unread? i).elim [] Inbox.pending) else none := by
  rw [List.getElem?_map]
  by_cases hi : i < h.relays.length
  · rw [if_pos hi, unread?, inbox?, List.getElem?_eq_getElem hi]
    obtain ⟨⟨pending, connected⟩, running⟩ := h.relays[i]
    cases running <;> cases connected <;> cases pending <;> rfl
  · rw [if_neg hi, List.getElem?_eq_none (Nat.le_of_not_lt hi)]
    rfl

theorem unread?_settle (h : VolumeHub) (i : Nat) :
    h.settle.unread? i = ((h.unread? i).map Inbox.emptied).filter fun inbox => !inbox.spent := by
  refine unread?_of_map (inbox?_settle h i) fun inbox hspent => ?_
  obtain ⟨hempty, -⟩ := Bool.and_eq_true_iff.mp hspent
  rw [Inbox.emptied, ← List.isEmpty_iff.mp hempty]

/-- Hubs that show the same still do when everything is done. -/
theorem Alike.settle (halike : Alike h h') : Alike h.settle h'.settle where
  table := by
    have htodo : h.relays.map todo = h'.relays.map todo := by
      refine List.ext_getElem? fun i => ?_
      rw [getElem?_map_todo, getElem?_map_todo, halike.relays, halike.unread]
    rw [table_settle, table_settle, halike.table, List.flatMap_def, List.flatMap_def, htodo]
  mounted := halike.mounted
  listeners := halike.listeners
  relays := by
    rw [relays_settle, relays_settle, List.length_map, List.length_map, halike.relays]
  heard := halike.heard
  unread i := by rw [unread?_settle, unread?_settle, halike.unread]

/-- Every relay that is running has applied all that arrived. -/
def Settled (h : VolumeHub) : Prop := ∀ i inbox, h.inbox? (.relay i) = some inbox → inbox.pending = []

theorem Settled.shrink (hsettled : h.Settled) (hshrinks : Shrinks h h') : h'.Settled := by
  intro i inbox hinbox
  obtain ⟨old, hold, -, hpending⟩ := hshrinks.inbox _ inbox hinbox
  exact List.suffix_nil.mp (hsettled i old hold ▸ hpending)

/-- Where everything is done, nothing changes when it is done. -/
theorem Settled.alike (hsettled : h.Settled) : Alike h.settle h where
  table := by
    have htodo : h.relays.flatMap todo = [] := by
      rw [List.flatMap_eq_nil_iff]
      intro r hr
      obtain ⟨i, hi⟩ := List.mem_iff_getElem?.mp hr
      unfold todo
      split
      · next hrunning => exact hsettled i r.inbox (by rw [inbox?, hi, Option.filter_some, if_pos hrunning]; rfl)
      · rfl
    rw [table_settle, htodo]
    rfl
  mounted := rfl
  listeners := rfl
  relays := by rw [relays_settle, List.length_map]
  heard _ := rfl
  unread i := by
    rw [unread?, unread?, inbox?_settle]
    cases hinbox : h.inbox? (.relay i) with
    | none => rfl
    | some inbox =>
      have hsame : inbox.emptied = inbox := by rw [Inbox.emptied, ← hsettled i inbox hinbox]
      rw [Option.map_some, hsame]

/-! ## Calls on hubs that show the same -/

variable {reader : Reader}

theorem Alike.withTable (halike : Alike h h') (g : VolumeTable → VolumeTable) :
    Alike (h.withTable g) (h'.withTable g) where
  table := congrArg g halike.table
  mounted := halike.mounted
  listeners := halike.listeners
  relays := halike.relays
  heard i := by rw [inbox?_withTable, inbox?_withTable, halike.heard]
  unread i := by rw [unread?, unread?, inbox?_withTable, inbox?_withTable]; exact halike.unread i

theorem Alike.withMounted (halike : Alike h h') (g : List VolumeReport → List VolumeReport) :
    Alike (h.withMounted g) (h'.withMounted g) where
  table := halike.table
  mounted := congrArg g halike.mounted
  listeners := halike.listeners
  relays := halike.relays
  heard i := by rw [inbox?_withMounted, inbox?_withMounted, halike.heard]
  unread i := by rw [unread?, unread?, inbox?_withMounted, inbox?_withMounted]; exact halike.unread i

theorem inbox?_withInboxes : (h.withInboxes f).inbox? reader = (h.inbox? reader).map f := by
  cases reader with
  | listener i =>
    show ((h.listeners.map (Option.map f))[i]?).join = _
    rw [List.getElem?_map, inbox?]
    rcases h.listeners[i]? with _ | _ | inbox <;> rfl
  | relay i =>
    rw [inbox?, inbox?, withInboxes, List.getElem?_map]
    cases h.relays[i]? with
    | none => rfl
    | some r =>
      obtain ⟨inbox, running⟩ := r
      cases running <;> rfl

/-- All inboxes are changed in the same way, and spent ones stay as they are. -/
theorem Alike.withInboxes (halike : Alike h h') (hf : ∀ inbox : Inbox, inbox.spent = true → f inbox = inbox) :
    Alike (h.withInboxes f) (h'.withInboxes f) where
  table := halike.table
  mounted := halike.mounted
  listeners := by
    show (h.listeners.map _).length = (h'.listeners.map _).length
    rw [List.length_map, List.length_map, halike.listeners]
  relays := by
    show (h.relays.map _).length = (h'.relays.map _).length
    rw [List.length_map, List.length_map, halike.relays]
  heard i := by rw [inbox?_withInboxes, inbox?_withInboxes, halike.heard]
  unread i := by
    rw [unread?_of_map inbox?_withInboxes hf, unread?_of_map inbox?_withInboxes hf, halike.unread]

theorem Alike.listen (halike : Alike h h') : Alike h.listen h'.listen where
  table := halike.table
  mounted := halike.mounted
  listeners := by
    show (h.listeners ++ _).length = (h'.listeners ++ _).length
    rw [List.length_append, List.length_append, halike.listeners]
  relays := halike.relays
  heard i := by rw [inbox?_listen, inbox?_listen, halike.listeners, halike.heard]
  unread := halike.unread

theorem Alike.relay (halike : Alike h h') (inbox : Inbox) : Alike (h.relay inbox) (h'.relay inbox) where
  table := halike.table
  mounted := halike.mounted
  listeners := halike.listeners
  relays := by
    show (h.relays ++ _).length = (h'.relays ++ _).length
    rw [List.length_append, List.length_append, halike.relays]
  heard := halike.heard
  unread i := by
    have hunread := halike.unread i
    unfold unread? at hunread ⊢
    rw [inbox?_relay, inbox?_relay, halike.relays]
    split
    · rfl
    · exact hunread

theorem Alike.stop (halike : Alike h h') (i : Nat) : Alike (h.stop i) (h'.stop i) where
  table := halike.table
  mounted := halike.mounted
  listeners := halike.listeners
  relays := by
    show (h.relays.modify i _).length = (h'.relays.modify i _).length
    rw [List.length_modify, List.length_modify, halike.relays]
  heard := halike.heard
  unread j := by
    rw [unread?_of_gone fun _ => inbox?_stop, unread?_of_gone fun _ => inbox?_stop, halike.unread]

theorem Alike.drop (halike : Alike h h') (i : Nat) : Alike (h.drop i) (h'.drop i) where
  table := halike.table
  mounted := halike.mounted
  listeners := by
    show (h.listeners.modify i _).length = (h'.listeners.modify i _).length
    rw [List.length_modify, List.length_modify, halike.listeners]
  relays := halike.relays
  heard j := by rw [inbox?_drop, inbox?_drop, halike.heard]
  unread := halike.unread

theorem Alike.clear (halike : Alike h h') (i : Nat) : Alike (h.clear i) (h'.clear i) where
  table := halike.table
  mounted := halike.mounted
  listeners := by
    show (h.listeners.modify i _).length = (h'.listeners.modify i _).length
    rw [List.length_modify, List.length_modify, halike.listeners]
  relays := halike.relays
  heard j := by rw [inbox?_clear, inbox?_clear, halike.heard]
  unread := halike.unread

/-- Nothing arrives in a spent inbox. -/
theorem receive_of_spent (e : VolumeEvent) {inbox : Inbox} (hspent : inbox.spent = true) :
    inbox.receive e = inbox := by
  have hcut : inbox.connected = false := by simpa using (Bool.and_eq_true_iff.mp hspent).2
  rw [Inbox.receive, if_neg (by simp [hcut])]

theorem cutOff_of_spent {inbox : Inbox} (hspent : inbox.spent = true) : inbox.cutOff = inbox := by
  have hcut : inbox.connected = false := by simpa using (Bool.and_eq_true_iff.mp hspent).2
  rw [Inbox.cutOff, ← hcut]

theorem Alike.publish (halike : Alike h h') (e : VolumeEvent) : Alike (h.publish e) (h'.publish e) :=
  halike.withInboxes fun _ => receive_of_spent e

/-- A relay takes over the inbox of a listener. -/
theorem adopt_eq (h : VolumeHub) (i : Nat) : h.adopt i
    = (h.inbox? (.listener i)).elim h fun inbox => ((h.drop i).relay inbox).settle := by
  rw [adopt, inbox?]
  rcases h.listeners[i]? with _ | _ | inbox <;> rfl

theorem inbox?_shutdown (h : VolumeHub) (i : Nat) : h.shutdown.inbox? (.relay i) = none := by
  rw [inbox?, shutdown, List.getElem?_map]
  cases h.relays[i]? <;> rfl

theorem settled_shutdown (h : VolumeHub) : h.shutdown.Settled := by
  intro i inbox hinbox
  rw [inbox?_shutdown] at hinbox
  cases hinbox

theorem Alike.shutdown (halike : Alike h h') : Alike h.shutdown h'.shutdown where
  table := rfl
  mounted := halike.mounted
  listeners := halike.listeners
  relays := by
    show (h.relays.map _).length = (h'.relays.map _).length
    rw [List.length_map, List.length_map, halike.relays]
  heard := halike.heard
  unread i := by rw [unread?, unread?, inbox?_shutdown, inbox?_shutdown]

/-- Hubs that show the same still do after a call. -/
theorem Alike.perform (halike : Alike h h') (c : VolumeCall) : Alike (h.perform c) (h'.perform c) := by
  cases c with
  | operate o =>
    cases o with
    | clear => exact halike.shutdown
    | add v => exact halike.withTable (·.add v)
    | remove id => exact halike.withTable (·.remove id)
    | apply e => exact halike.withTable (·.apply e)
    | enumerate found => exact halike.withTable (·.enumerate found)
  | mount r => exact ((halike.withMounted _).publish _).settle
  | unmount id => exact ((halike.withMounted _).publish _).settle
  | notify e => exact (halike.publish e).settle
  | reset => exact ((halike.withMounted _).withInboxes fun _ => cutOff_of_spent).settle
  | listen => exact halike.listen
  | clear i => exact halike.clear i
  | drop i => exact halike.drop i
  | start found => exact ((halike.relay .fresh).withTable _).settle
  | connect => exact (halike.relay .fresh).settle
  | adopt i =>
    show Alike (h.adopt i) (h'.adopt i)
    rw [adopt_eq, adopt_eq, halike.heard]
    cases h'.inbox? (.listener i) with
    | none => exact halike
    | some inbox => exact ((halike.drop i).relay inbox).settle
  | feed events => exact (halike.relay _).settle
  | stop i => exact halike.stop i

end VolumeHub

end FileProvider
