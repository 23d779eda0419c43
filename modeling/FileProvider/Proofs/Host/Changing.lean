import FileProvider.Host.System
import FileProvider.Proofs.Host.Looking
import FileProvider.Proofs.Host.WellFormed

/-!
# What calls on the host change

A call that is given one location changes nothing but at or below a place to which the location leads. If it
fails it changes nothing at all, unless it removes a whole tree. A rename takes two entries, each of which is
named by its last name in the directory that the names before it lead to; a link there is renamed as such.
It fails for leaving the device only if those two directories are on different ones.
-/

set_option autoImplicit false

namespace FileProvider.Host

variable {h k : Host} {ending : Ending} {p q l : Location} {n : String} {written : Location → Prop}

/-! ## Places -/

/-- A location leads to what it is resolved to. -/
theorem leads_of_resolve {found : Place} (hfound : h.resolve ending l = .ok found) :
    Leads h [] l found.1 := (walks_of_resolve hfound).leads

/-- Where nothing is found, something may come. -/
theorem free_of_resolve (hwf : h.WellFormed) (hfound : h.resolve ending l = .ok (p, none)) :
    ∃ d n, p = d ++ [n] ∧ h.Free d n :=
  (walks_of_resolve hfound).exists_free hwf (by rw [hwf.root]; rfl)

theorem find?_of_resolve {node : Option HostNode} (hfound : h.resolve ending l = .ok (p, node)) :
    h.find? p = node := (walks_of_resolve hfound).node_eq.symm

/-! ## Changes at one place -/

/-- Whether one host comes from another by changes at or below a place to which a location leads; no file is
written. -/
def ChangesAt (h : Host) (l : Location) (k : Host) : Prop :=
  ∃ p, Leads h [] l p ∧ Framed (p <+: ·) (fun _ => False) h k

/-- Whether one host comes from another by changes at or below a place to which a location leads, files being
written there. -/
def WritesAt (h : Host) (l : Location) (k : Host) : Prop :=
  ∃ p, Leads h [] l p ∧ Framed (p <+: ·) (p <+: ·) h k

/-- What has no children can go by itself. -/
theorem framed_erase (hwf : h.WellFormed) (hp : p ≠ []) (hleaf : ∀ n, h.find? (p ++ [n]) = none) :
    Framed (p <+: ·) written h { h with entries := h.entries.erase p } := by
  refine .of_removed hwf hp (fun q => ?_) (fun _ => rfl) rfl
  change (h.entries.erase p).find? q = _
  rw [Catalogue.find?_erase]
  by_cases hbelow : p <+: q
  · rw [if_pos hbelow]
    obtain ⟨r, rfl⟩ := hbelow
    by_cases hr : r = []
    · rw [if_pos (by rw [hr, List.append_nil])]
    · rw [if_neg (Location.ne_append p hr).symm]
      exact hwf.none_below hleaf hr
  · have hne : q ≠ p := fun heq => hbelow (heq ▸ List.prefix_refl _)
    rw [if_neg hbelow, if_neg hne]
    rfl

/-- What is no directory can go by itself. -/
theorem framed_erase_leaf (hwf : h.WellFormed) (hleaf : h.find? p ≠ some .dir) :
    Framed (p <+: ·) written h { h with entries := h.entries.erase p } :=
  framed_erase hwf (fun hp => hleaf (hp ▸ hwf.root)) fun n => hwf.leaf hleaf (List.cons_ne_nil n [])

theorem framed_put_dir (hwf : h.WellFormed) (hfree : h.Free p n) :
    Framed (p ++ [n] <+: ·) written h { h with entries := h.entries.put (p ++ [n]) .dir } :=
  .of_added hwf hfree (fun _ => HostNode.noConfusion) (fun _ => HostNode.noConfusion)
    (fun q => Catalogue.find?_put h.entries (p ++ [n]) q .dir) (fun _ _ => rfl) (Nat.le_refl _)

/-! ## Calls on one place -/

theorem atomic_place (ending : Ending) (l : Location) (h : Host) :
    Atomic (place ending l) h fun found k => k = h ∧ h.resolve ending l = .ok found := by
  rw [Atomic, place_apply]
  cases hfound : h.resolve ending l with
  | error e => exact .inl ⟨e, rfl⟩
  | ok found => exact .inr ⟨found, h, rfl, rfl, rfl⟩

theorem atomic_present (ending : Ending) (l : Location) (h : Host) :
    Atomic (present ending l) h fun found k => k = h ∧ h.resolve ending l = .ok (found.1, some found.2) := by
  refine (atomic_place ending l h).look_bind fun ⟨p, node⟩ hfound => ?_
  cases node with
  | none => exact .of_error rfl
  | some node => exact .of_ok rfl ⟨rfl, hfound⟩

theorem atomic_createDir (hwf : h.WellFormed) (l : Location) :
    Atomic (createDir l) h fun _ k => h.ChangesAt l k := by
  refine (atomic_place .kept l h).look_bind fun ⟨p, node⟩ hfound => ?_
  cases node with
  | some node => exact .of_error rfl
  | none =>
    obtain ⟨d, n, rfl, hfree⟩ := free_of_resolve hwf hfound
    exact .of_ok rfl ⟨_, leads_of_resolve hfound, framed_put_dir hwf hfree⟩

theorem atomic_removeDirAt (hwf : h.WellFormed) (p : Location) :
    Atomic (removeDirAt p) h fun _ k => Framed (p <+: ·) written h k := by
  refine .get_bind ?_
  by_cases hmount : h.isMount p = true
  · rw [if_pos hmount]
    exact .of_error rfl
  rw [if_neg hmount]
  -- A device is mounted at the root, so that it is not what is removed.
  have hp : p ≠ [] := fun heq => hmount (by rw [heq]; rfl)
  cases hempty : (h.entries.children p).isEmpty with
  | false => exact .of_error rfl
  | true =>
    have hchildren := List.isEmpty_iff.mp hempty
    exact .of_ok rfl (framed_erase hwf hp fun n => Catalogue.find?_of_children_eq_nil hchildren n)

theorem atomic_removeDir (hwf : h.WellFormed) (l : Location) :
    Atomic (removeDir l) h fun _ k => h.ChangesAt l k := by
  refine (atomic_present .kept l h).look_bind fun ⟨p, node⟩ hfound => ?_
  cases node with
  | file id => exact .of_error rfl
  | link target => exact .of_error rfl
  | dir => exact (atomic_removeDirAt hwf p).mono fun _ k hk => ⟨p, leads_of_resolve hfound, hk⟩

theorem atomic_unlink (hwf : h.WellFormed) (l : Location) :
    Atomic (unlink l) h fun _ k => h.ChangesAt l k := by
  refine (atomic_present .kept l h).look_bind fun ⟨p, node⟩ hfound => ?_
  by_cases hdir : node = .dir
  · subst hdir
    exact .of_error rfl
  · refine .of_ok (a := ()) (t := { h with entries := h.entries.erase p }) ?_ ⟨p, leads_of_resolve hfound,
      framed_erase_leaf hwf ?_⟩
    · cases node with
      | dir => exact absurd rfl hdir
      | file id => rfl
      | link target => rfl
    · rw [find?_of_resolve hfound]
      exact fun heq => hdir (Option.some.inj heq)

/-! ## Removing a tree -/

theorem atomic_removeAt (hwf : h.WellFormed) (p : Location) :
    Atomic (removeAt p) h fun _ k => Framed (p <+: ·) written h k := by
  unfold removeAt
  refine .get_bind ?_
  split
  · exact atomic_removeDirAt hwf p
  · next hdir => exact .of_ok rfl (framed_erase_leaf hwf hdir)

/-- What is removed one after the other below a place is removed there. -/
theorem keeps_removeAt (hwithin : p <+: q) : Keeps (Framed (p <+: ·) written h) (removeAt q) :=
  .of_atomic fun _ hk => (atomic_removeAt hk.wellFormed q).mono fun _ _ hm =>
    hk.trans (hm.mono (fun _ => hwithin.trans) fun _ => id)

theorem keeps_removeTreeAt (p : Location) : Keeps (Framed (p <+: ·) written h) (removeTreeAt p) := by
  refine Keeps.bind_of_ok (fun k hk => hk) fun _ k _ _ _ => .bind (.forM fun e he => ?_) fun _ => ?_
  · exact keeps_removeAt (Catalogue.within_of_mem_walk (List.mem_reverse.mp he))
  · exact .of_atomic fun k hk => (atomic_removeDirAt hk.wellFormed p).mono fun _ _ hm => hk.trans hm

/-- Removing a tree changes nothing but what is at or below one place, even if it fails on the way. -/
theorem removeTree_outcome (hwf : h.WellFormed) (l : Location) :
    ((removeTree l).outcome h).2 = h ∨ h.ChangesAt l ((removeTree l).outcome h).2 := by
  rcases atomic_present .kept l h with ⟨e, he⟩ | ⟨⟨p, node⟩, k, hfound, hk, hresolve⟩
  · refine .inl ?_
    rw [removeTree, Step.outcome, bind_apply, he]
  · have hleads : Leads h [] l p := leads_of_resolve hresolve
    cases node with
    | dir =>
      have hrun : (removeTree l).outcome h = (removeTreeAt p).outcome h := by
        rw [removeTree, Step.outcome, bind_apply, hfound, hk]
        rfl
      rw [hrun]
      exact .inr ⟨p, hleads, (keeps_removeTreeAt p).step_outcome (.refl hwf)⟩
    | link target =>
      have hrun : ((removeTree l).outcome h).2 = { h with entries := h.entries.erase p } := by
        rw [removeTree, Step.outcome, bind_apply, hfound, hk]
        rfl
      rw [hrun]
      refine .inr ⟨p, hleads, framed_erase_leaf hwf ?_⟩
      rw [find?_of_resolve hresolve]
      exact fun hdir => by cases hdir
    | file id =>
      refine .inl ?_
      rw [removeTree, Step.outcome, bind_apply, hfound, hk]
      rfl

/-! ## Listing -/

/-- What a directory lists has names that lead to children. -/
theorem atomic_readDir (hwf : h.WellFormed) (l : Location) :
    Atomic (readDir l) h fun entries k => k = h ∧ ∀ e ∈ entries, IsChildStep e.name := by
  refine (atomic_present .followed l h).look_bind fun ⟨p, node⟩ _ => ?_
  cases node with
  | file id => exact .of_error rfl
  | link target => exact .of_error rfl
  | dir =>
    refine .of_ok rfl ⟨rfl, fun e he => ?_⟩
    obtain ⟨⟨name, node⟩, hmem, rfl⟩ := List.mem_map.mp he
    have hlisted : (name, node) ∈ h.entries.children p := (List.mem_mergeSort).mp hmem
    obtain ⟨node', hnode⟩ := Option.isSome_iff_exists.mp (Catalogue.isSome_of_mem_children hlisted)
    exact hwf.childStep hnode

/-! ## Contents -/

/-- The host after a content was replaced. -/
def withContent (h : Host) (id : Nat) (data : Bytes) : Host :=
  { h with contents := h.contents.map fun e => if e.1 = id then (id, data) else e }

/-- The host after a new empty file came. -/
def withFile (h : Host) (p : Location) : Host :=
  { h with
    entries := h.entries.put p (.file h.nextId)
    contents := (h.nextId, []) :: h.contents
    nextId := h.nextId + 1 }

theorem find?_withFile (h : Host) (p q : Location) :
    (h.withFile p).find? q = if q = p then some (.file h.nextId) else h.find? q :=
  Catalogue.find?_put h.entries p q (.file h.nextId)

/-- Replacing one content keeps the others. -/
theorem content_withContent_ne {id other : Nat} (hne : other ≠ id) (data : Bytes) :
    (h.withContent id data).content other = h.content other := by
  unfold content withContent
  dsimp only
  congr 1
  induction h.contents with
  | nil => rfl
  | cons e contents ih =>
    obtain ⟨j, old⟩ := e
    rw [List.map_cons, List.lookup_cons, List.lookup_cons, ih]
    by_cases hj : j = id
    · have hother : (other == id) = false := beq_eq_false_iff_ne.mpr hne
      rw [if_pos hj, hj, hother]
    · rw [if_neg hj]

theorem content_withFile (h : Host) (p : Location) {id : Nat} (hid : id ≠ h.nextId) :
    (h.withFile p).content id = h.content id := by
  unfold content withFile
  rw [List.lookup_cons, beq_eq_false_iff_ne.mpr hid]

theorem framed_withContent (hwf : h.WellFormed) {id : Nat} (hfile : h.find? p = some (.file id)) (data : Bytes) :
    Framed (p <+: ·) (p <+: ·) h (h.withContent id data) :=
  .of_written hwf hfile (fun _ => rfl) (fun _ hne => content_withContent_ne hne data) rfl

theorem framed_withFile (hwf : h.WellFormed) (hfree : h.Free p n) :
    Framed (p ++ [n] <+: ·) written h (h.withFile (p ++ [n])) := by
  refine .of_added hwf hfree (fun _ => HostNode.noConfusion) (fun id heq => ?_) (find?_withFile h _)
    (fun id hid => content_withFile h _ (Nat.ne_of_lt hid)) (Nat.le_succ _)
  cases heq
  exact ⟨rfl, Nat.lt_succ_self _⟩

/-- How opening ends for a mode that can be asked for, given where the location leads. -/
def opening (h : Host) (m : OpenMode) : Except IoError Place → EStateM.Result IoError Host (Option Nat)
  | .error e => .error e h
  | .ok (p, none) =>
    if m.create || m.createNew then .ok (some h.nextId) (h.withFile p) else .error (.os Errno.noEntry) h
  | .ok (_, some (.file id)) =>
    if m.createNew then .error (.os Errno.taken) h
    else .ok (some id) (if m.truncate then h.withContent id [] else h)
  | .ok (_, some _) =>
    if m.createNew then .error (.os Errno.taken) h
    else if m.write || m.append || m.create then .error (.os Errno.isADirectory) h
    else .ok none h

theorem openNode_unspellable {e : IoError} (hspell : spellable l = .error e) (m : OpenMode) (h : Host) :
    openNode l m h = .error e h := by
  rw [openNode, bind_apply, hspell]
  rfl

/-- The first steps of opening what can be handed to the system. -/
theorem openNode_spellable (hspell : spellable l = .ok ()) (m : OpenMode) (h : Host) :
    openNode l m h = if validMode m then h.opening m (h.resolve (Host.ending m) l)
      else .error (.os Errno.invalid) h := by
  rw [openNode, bind_apply, hspell]
  cases validMode m with
  | false => rfl
  | true =>
    change (place (Host.ending m) l >>= _ : Op (Option Nat)) h = _
    rw [bind_apply, place_apply, if_pos rfl]
    unfold opening
    cases h.resolve (Host.ending m) l with
    | error e => rfl
    | ok found =>
      obtain ⟨p, _ | _ | _ | _⟩ := found
      · dsimp only
        split <;> rfl
      · dsimp only
        split
        · rfl
        · split <;> rfl
      · dsimp only
        split
        · rfl
        · split <;> rfl
      · dsimp only
        split
        · rfl
        · split <;> rfl

/-- A mode that cannot be asked for is refused, whatever the location leads to. -/
theorem openNode_invalid {m : OpenMode} (hm : validMode m = false) (l : Location) (h : Host) :
    ∃ e, openNode l m h = .error e h ∧ e.kind = .invalidInput := by
  cases hspell : spellable l with
  | error e =>
    exact ⟨e, openNode_unspellable hspell m h, kind_of_spellable hspell⟩
  | ok _ =>
    refine ⟨.os Errno.invalid, ?_, rfl⟩
    rw [openNode_spellable hspell, hm, if_neg Bool.false_ne_true]

theorem openNode_valid {m : OpenMode} (hm : validMode m = true) (l : Location) (h : Host) :
    openNode l m h = h.opening m (h.resolve (Host.ending m) l) := by
  cases hspell : spellable l with
  | error e =>
    rw [openNode_unspellable hspell, resolve_eq_error (askable_of_spellable hspell)]
    rfl
  | ok _ => rw [openNode_spellable hspell, if_pos hm]

/-- What opening gives: a directory, which changes nothing, or a file, which may have come or been
emptied. -/
inductive Opened (h : Host) (l : Location) : Option Nat → Host → Prop where
  | dir : Opened h l none h
  | file {p : Location} {id : Nat} {k : Host} (hleads : Leads h [] l p)
      (hframed : Framed (p <+: ·) (p <+: ·) h k) (hfile : k.find? p = some (.file id)) : Opened h l (some id) k

theorem atomic_openNode (hwf : h.WellFormed) (l : Location) (m : OpenMode) :
    Atomic (openNode l m) h (Opened h l) := by
  cases hm : validMode m with
  | false =>
    obtain ⟨e, he, -⟩ := openNode_invalid hm l h
    exact .of_error he
  | true =>
    rw [Atomic, openNode_valid hm]
    cases hfound : h.resolve (Host.ending m) l with
    | error e => exact .inl ⟨e, rfl⟩
    | ok found =>
      obtain ⟨p, node⟩ := found
      have hleads : Leads h [] l p := leads_of_resolve hfound
      have hnode := find?_of_resolve hfound
      unfold opening
      split
      · next heq => cases heq
      · next heq =>
        cases heq
        obtain ⟨d, n, rfl, hfree⟩ := free_of_resolve hwf hfound
        split
        · refine .inr ⟨_, _, rfl, .file hleads (framed_withFile hwf hfree) ?_⟩
          rw [find?_withFile, if_pos rfl]
        · exact .inl ⟨_, rfl⟩
      · next id heq =>
        cases heq
        split
        · exact .inl ⟨_, rfl⟩
        · refine .inr ⟨_, _, rfl, ?_⟩
          split
          · exact .file hleads (framed_withContent hwf hnode []) hnode
          · exact .file hleads (.refl hwf) hnode
      · next node hno heq =>
        cases heq
        split
        · exact .inl ⟨_, rfl⟩
        · split
          · exact .inl ⟨_, rfl⟩
          · exact .inr ⟨_, _, rfl, .dir⟩

/-- Opening for reading only looks. -/
theorem atomic_openNode_read (l : Location) (h : Host) :
    Atomic (openNode l { read := true }) h fun _ k => k = h := by
  rw [Atomic, openNode_valid (by decide)]
  cases h.resolve (Host.ending { read := true }) l with
  | error e => exact .inl ⟨e, rfl⟩
  | ok found =>
    obtain ⟨p, _ | _ | _ | _⟩ := found
    · exact .inl ⟨_, rfl⟩
    · exact .inr ⟨_, _, rfl, rfl⟩
    · exact .inr ⟨_, _, rfl, rfl⟩
    · exact .inr ⟨_, _, rfl, rfl⟩

theorem atomic_readFile (l : Location) (h : Host) : Atomic (readFile l) h fun _ k => k = h := by
  refine ((atomic_openNode_read l h).mono fun _ _ hk => ⟨hk, trivial⟩).look_bind fun opened _ => ?_
  cases opened with
  | none => exact .of_error rfl
  | some id => exact .of_ok rfl rfl

/-- Replacing the content of a file, which is empty in between, is one change. -/
theorem atomic_recreate (hwf : h.WellFormed) (l : Location) (data : Nat → Host → Bytes) :
    Atomic (do
      let id ← recreate l
      setContent id (data id (← get))) h fun _ k => h.WritesAt l k := by
  rcases atomic_openNode hwf l { write := true, create := true, truncate := true } with
    ⟨e, he⟩ | ⟨opened, k, hk, hopened⟩
  · refine .of_error (e := e) ?_
    rw [recreate, bind_apply, bind_apply, he]
  · cases hopened with
    | dir =>
      refine .of_error (e := .os Errno.isADirectory) ?_
      rw [recreate, bind_apply, bind_apply, hk]
      rfl
    | @file p id _ hleads hframed hfile =>
      refine .of_ok (a := ()) (t := k.withContent id (data id k)) ?_
        ⟨p, hleads, hframed.trans (framed_withContent hframed.wellFormed hfile _)⟩
      rw [recreate, bind_apply, bind_apply, hk]
      rfl

theorem atomic_writeFile (hwf : h.WellFormed) (l : Location) (data : Bytes) :
    Atomic (writeFile l data) h fun _ k => h.WritesAt l k :=
  atomic_recreate hwf l fun _ _ => data

/-- Copying changes its target alone. -/
theorem atomic_copyFile (hwf : h.WellFormed) (source l : Location) :
    Atomic (copyFile source l) h fun _ k => h.WritesAt l k := by
  refine ((atomic_openNode_read source h).mono fun _ _ hk => ⟨hk, trivial⟩).look_bind fun opened _ => ?_
  cases opened with
  | none => exact .of_error rfl
  | some sourceId => exact atomic_recreate hwf l fun _ k => k.content sourceId

/-! ## Trees stay trees -/

theorem wellFormed_empty : empty.WellFormed := by
  have hfind : ∀ {q node}, empty.find? q = some node → q = [] ∧ node = .dir := by
    intro q node hq
    change Catalogue.find? [([], .dir)] q = some node at hq
    rw [Catalogue.find?_cons] at hq
    split at hq
    · next hnil => exact ⟨hnil, (Option.some.inj hq).symm⟩
    · cases hq
  have hchild : ∀ {p n node}, empty.find? (p ++ [n]) ≠ some node := fun hq =>
    List.append_ne_nil_of_right_ne_nil _ (List.cons_ne_nil _ _) (hfind hq).1
  have hfile : ∀ {p id}, empty.find? p ≠ some (.file id) := fun hq => HostNode.noConfusion (hfind hq).2
  exact ⟨rfl, fun hq => absurd hq hchild, fun hq => absurd hq hchild, fun hq => absurd hq hchild,
    fun hp => absurd hp hfile⟩

theorem keeps_createDir (l : Location) : Keeps WellFormed (createDir l) :=
  .of_atomic fun _ hwf => (atomic_createDir hwf l).mono fun _ _ ⟨_, _, hframed⟩ => hframed.wellFormed

theorem keeps_writeFile (l : Location) (data : Bytes) : Keeps WellFormed (writeFile l data) :=
  .of_atomic fun _ hwf => (atomic_writeFile hwf l data).mono fun _ _ ⟨_, _, hframed⟩ => hframed.wellFormed

theorem keeps_createLink (target : String) (l : Location) : Keeps WellFormed (createLink target l) := by
  refine .of_atomic fun h hwf => ?_
  unfold createLink
  split
  · exact .of_error rfl
  · refine (atomic_place .kept l h).look_bind fun ⟨p, node⟩ hfound => ?_
    cases node with
    | some node => exact .of_error rfl
    | none =>
      obtain ⟨d, n, rfl, hfree⟩ := free_of_resolve hwf hfound
      exact .of_ok rfl (hwf.added hfree (fun _ => HostNode.noConfusion)
        (fun q => Catalogue.find?_put h.entries (d ++ [n]) q (.link _)) (Nat.le_refl _))

/-! ## Renaming -/

/-- Whether a location names an entry: the child of its last name in the directory that the names before
it lead to. -/
def Names (h : Host) (l p : Location) : Prop :=
  ∃ parent name d, l = parent ++ [name] ∧ h.resolve .followed parent = .ok (d, some .dir) ∧ p = d ++ [name]

/-- The entry that a location names is known from where the names before its last one lead. -/
theorem Names.eq {d : Location} (hnames : h.Names (l ++ [n]) p)
    (hl : h.resolve .followed l = .ok (d, some .dir)) : p = d ++ [n] := by
  obtain ⟨parent, name, d', heq, hparent, rfl⟩ := hnames
  obtain ⟨rfl, rfl⟩ := Location.child_inj.mp heq
  cases hl.symm.trans hparent
  rfl

/-- A location leads to the entry that it names. -/
theorem Names.leads (hnames : h.Names l p) (hl : l.Descends) : Leads h [] l p := by
  obtain ⟨parent, name, d, rfl, hparent, rfl⟩ := hnames
  refine (leads_of_resolve hparent).append fun step hstep => ?_
  rw [List.mem_singleton.mp hstep]
  exact (Location.descends_child.mp hl).2

theorem atomic_ofExcept {α : Type} (r : Except IoError α) (h : Host) :
    Atomic (Step.ofExcept r : Op α) h fun a k => k = h ∧ r = .ok a := by
  cases r with
  | error e => exact .of_error rfl
  | ok a => exact .of_ok rfl ⟨rfl, rfl⟩

theorem atomic_parentOf (l : Location) (h : Host) :
    Atomic (parentOf l) h fun found k => k = h ∧ h.Names l (found.1 ++ [found.2]) := by
  rcases l.eq_nil_or_append with rfl | ⟨parent, name, rfl⟩
  · exact .of_error rfl
  · unfold parentOf
    rw [Location.split?_append]
    refine (atomic_present .followed parent h).look_bind fun ⟨p, node⟩ hfound => ?_
    cases node with
    | dir => exact .of_ok rfl ⟨rfl, parent, name, p, rfl, hfound, rfl⟩
    | file id => exact .of_error rfl
    | link target => exact .of_error rfl

theorem atomic_lookup (d : Location) (name : String) (h : Host) :
    Atomic (lookup d name) h fun found k => k = h ∧ found = (d ++ [name], h.find? (d ++ [name])) := by
  unfold lookup
  split
  · exact .of_error rfl
  · exact .of_ok rfl ⟨rfl, rfl⟩

theorem atomic_parentsOf (source target : Location) (h : Host) :
    Atomic (parentsOf source target) h fun found k => k = h ∧
      h.Names source (found.1.1 ++ [found.1.2]) ∧ h.Names target (found.2.1 ++ [found.2.2]) := by
  refine (atomic_ofExcept (spellable source) h).look_bind fun _ _ => ?_
  refine (atomic_ofExcept (spellable target) h).look_bind fun _ _ => ?_
  refine (atomic_ofExcept (askable source) h).look_bind fun _ _ => ?_
  refine (atomic_ofExcept (askable target) h).look_bind fun _ _ => ?_
  refine (atomic_parentOf source h).look_bind fun _ hsource => ?_
  refine (atomic_parentOf target h).look_bind fun _ htarget => ?_
  exact .of_ok rfl ⟨rfl, hsource, htarget⟩

/-- On one device an entry gets its new place, or it has it already. -/
theorem atomic_renameWithin (d : Location) (n : String) (d' : Location) (n' : String) (h : Host) :
    Atomic (renameWithin d n d' n') h fun _ k => k = h ∨ k = h.relocate (d ++ [n]) (d' ++ [n']) := by
  refine (atomic_lookup d n h).look_bind fun ⟨old, there⟩ hold => ?_
  cases there with
  | none => exact .of_error rfl
  | some node =>
    refine (atomic_lookup d' n' h).look_bind fun ⟨new, room⟩ hnew => ?_
    obtain rfl := (Prod.mk.inj hold).1
    obtain rfl := (Prod.mk.inj hnew).1
    dsimp only
    split
    · exact .of_error rfl
    split
    · exact .of_error rfl
    split
    · exact .of_ok rfl (.inl rfl)
    refine (atomic_ofExcept (checkKinds node room) h).look_bind fun _ _ => ?_
    refine .get_bind ?_
    split
    · exact .of_error rfl
    split
    · exact .of_error rfl
    · exact .of_ok rfl (.inr rfl)

end FileProvider.Host
