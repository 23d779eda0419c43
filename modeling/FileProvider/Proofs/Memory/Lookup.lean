import FileProvider.Memory.Store
import FileProvider.Proofs.Catalogue
import FileProvider.Proofs.Path.Apart

/-!
# What is found in a store that was changed

Each change of a store is described by what is found at every location afterwards. Nothing else about
the catalogue matters to the operations, so the later modules use these equations only.
-/

set_option autoImplicit false

namespace FileProvider.Memory

namespace Node

/-- The node at `here`, with a name attached if `here` is the directory `p`. -/
def attachAt (here p : Location) (name : String) (node : Node) : Node :=
  if here = p then node.attach name else node

/-- The node at `here`, with a name detached if `here` is the directory `p`. -/
def detachAt (here p : Location) (name : String) (node : Node) : Node :=
  if here = p then node.detach name else node

variable {here p : Location} {name n : String} {names : List String} {ino : Nat} {node : Node}

@[simp]
theorem attachAt_self : node.attachAt p p name = node.attach name := if_pos rfl

theorem attachAt_ne (h : here ≠ p) : node.attachAt here p name = node := if_neg h

@[simp]
theorem detachAt_self : node.detachAt p p name = node.detach name := if_pos rfl

theorem detachAt_ne (h : here ≠ p) : node.detachAt here p name = node := if_neg h

@[simp]
theorem ino_attachAt : (node.attachAt here p name).ino = node.ino := by
  unfold attachAt
  split
  · cases node <;> rfl
  · rfl

@[simp]
theorem ino_detachAt : (node.detachAt here p name).ino = node.ino := by
  unfold detachAt
  split
  · cases node <;> rfl
  · rfl

@[simp]
theorem isDir_attachAt : (node.attachAt here p name).isDir = node.isDir := by
  unfold attachAt
  split
  · cases node <;> rfl
  · rfl

@[simp]
theorem isDir_detachAt : (node.detachAt here p name).isDir = node.isDir := by
  unfold detachAt
  split
  · cases node <;> rfl
  · rfl

/-- A directory to which a name was attached lists that name and those it listed before. -/
theorem mem_names_attachAt (h : here = p → node.isDir = true) :
    n ∈ (node.attachAt here p name).names ↔ n ∈ node.names ∨ here = p ∧ n = name := by
  by_cases hp : here = p
  · rw [hp, attachAt_self, and_iff_right rfl]
    cases node with
    | file ino data => cases h hp
    | dir ino names =>
      change n ∈ (if name ∈ names then names else names ++ [name]) ↔ n ∈ names ∨ n = name
      split
      · next hmem => exact ⟨.inl, fun hn => hn.elim id fun heq => heq ▸ hmem⟩
      · rw [List.mem_append, List.mem_singleton]
  · rw [attachAt_ne hp, or_iff_left fun hn => hp hn.1]

/-- A directory from which a name was detached lists the others. -/
theorem mem_names_detachAt :
    n ∈ (node.detachAt here p name).names ↔ n ∈ node.names ∧ ¬ (here = p ∧ n = name) := by
  by_cases hp : here = p
  · rw [hp, detachAt_self, and_iff_right rfl]
    cases node with
    | file ino data =>
      exact ⟨fun h => absurd h List.not_mem_nil, fun h => absurd h.1 List.not_mem_nil⟩
    | dir ino names =>
      change n ∈ names.filter (· ≠ name) ↔ n ∈ names ∧ n ≠ name
      rw [List.mem_filter, decide_eq_true_eq]
  · rw [detachAt_ne hp, and_iff_left fun hn => hp hn.1]

/-- Attaching a name does not make a directory list one twice. -/
theorem nodup_names_attachAt (h : node.names.Nodup) : (node.attachAt here p name).names.Nodup := by
  unfold attachAt
  split
  · cases node with
    | file ino data => exact h
    | dir ino names =>
      change (if name ∈ names then names else names ++ [name]).Nodup
      split
      · exact h
      · next hmem =>
        refine List.nodup_append.mpr ⟨h, List.pairwise_singleton _ _, fun n hn m hm heq => ?_⟩
        exact hmem (List.mem_singleton.mp hm ▸ heq ▸ hn)
  · exact h

/-- Detaching a name does not make a directory list one twice. -/
theorem nodup_names_detachAt (h : node.names.Nodup) : (node.detachAt here p name).names.Nodup := by
  unfold detachAt
  split
  · cases node with
    | file ino data => exact h
    | dir ino names => exact h.sublist List.filter_sublist
  · exact h

/-- It does not matter which of two different names is attached or detached first. -/
theorem detachAt_attachAt {q : Location} {m : String} (h : ¬ (p = q ∧ n = m)) :
    (node.attachAt here q m).detachAt here p n = (node.detachAt here p n).attachAt here q m := by
  by_cases hp : here = p
  · by_cases hq : here = q
    · have hne : m ≠ n := fun heq => h ⟨hp.symm.trans hq, heq.symm⟩
      subst hp hq
      rw [attachAt_self, detachAt_self, detachAt_self, attachAt_self]
      cases node with
      | file ino data => rfl
      | dir ino names =>
        have hmem : m ∈ names.filter (· ≠ n) ↔ m ∈ names := by
          rw [List.mem_filter, decide_eq_true_eq, and_iff_left hne]
        change Node.dir ino ((if m ∈ names then names else names ++ [m]).filter (· ≠ n))
          = .dir ino (if m ∈ names.filter (· ≠ n) then names.filter (· ≠ n)
              else names.filter (· ≠ n) ++ [m])
        by_cases hm : m ∈ names
        · rw [if_pos hm, if_pos (hmem.mpr hm)]
        · rw [if_neg hm, if_neg (fun hf => hm (hmem.mp hf)), List.filter_append,
            List.filter_singleton, decide_eq_true hne]
          rfl
    · rw [attachAt_ne hq, attachAt_ne hq]
  · rw [detachAt_ne hp, detachAt_ne hp]

/-- A name that is new comes behind the others. -/
theorem attach_dir (h : n ∉ names) : (Node.dir ino names).attach n = .dir ino (names ++ [n]) := by
  rw [attach, if_neg h]

/-- Detaching a name that came last brings back the names before it. -/
theorem detach_dir (h : n ∉ names) : (Node.dir ino (names ++ [n])).detach n = .dir ino names := by
  have hkept : ∀ m ∈ names, decide (m ≠ n) = true := fun m hm => decide_eq_true fun heq => h (heq ▸ hm)
  rw [detach, List.filter_append, List.filter_eq_self.mpr hkept, List.filter_singleton,
    decide_eq_false (not_not_intro rfl)]
  exact congrArg (Node.dir ino) (List.append_nil names)

end Node

namespace Store

variable {s : Store}

theorem find?_empty (l : Location) : empty.find? l = if l = [] then some (.dir 1 []) else none :=
  Catalogue.find?_cons [] _ [] l

theorem find?_put (l k : Location) (node : Node) :
    (s.put l node).find? k = if k = l then some node else s.find? k :=
  Catalogue.find?_put s.entries l k node

theorem find?_erase (l k : Location) :
    (s.erase l).find? k = if k = l then none else s.find? k :=
  Catalogue.find?_erase s.entries l k

/-- Changing the node at a location is putting another one there. -/
theorem adjust_of_find? {l : Location} {found : Node} (h : s.find? l = some found) (f : Node → Node) :
    s.adjust l f = s.put l (f found) := by
  rw [adjust, h]

theorem find?_adjust (l k : Location) (f : Node → Node) :
    (s.adjust l f).find? k = (s.find? k).map fun node => if k = l then f node else node := by
  have hsame : k ≠ l → s.find? k = (s.find? k).map fun node => if k = l then f node else node := by
    intro hk
    simp only [if_neg hk, Option.map_id']
  unfold adjust
  cases hl : s.find? l with
  | none =>
    by_cases hk : k = l
    · rw [hk, hl]
      rfl
    · exact hsame hk
  | some node =>
    change (s.put l (f node)).find? k = _
    rw [find?_put]
    by_cases hk : k = l
    · rw [if_pos hk, hk, hl, Option.map_some, if_pos rfl]
    · rw [if_neg hk]
      exact hsame hk

theorem find?_attach (p k : Location) (name : String) :
    (s.attach p name).find? k = (s.find? k).map (Node.attachAt k p name) :=
  find?_adjust p k _

theorem find?_detach (p k : Location) (name : String) :
    (s.detach p name).find? k = (s.find? k).map (Node.detachAt k p name) :=
  find?_adjust p k _

/-- A new node is found where it was added, and its directory lists it. -/
theorem find?_add (p k : Location) (name : String) (node : Nat → Node) :
    (s.add p name node).find? k
      = if k = p ++ [name] then some (node s.nextIno)
        else (s.find? k).map (Node.attachAt k p name) := by
  change ((s.put (p ++ [name]) (node s.nextIno)).attach p name).find? k = _
  rw [find?_attach, find?_put]
  by_cases hk : k = p ++ [name]
  · rw [if_pos hk, if_pos hk, Option.map_some,
      Node.attachAt_ne (hk ▸ (Location.ne_child p name).symm)]
  · rw [if_neg hk, if_neg hk]

/-- A node that was removed is not found, and its directory does not list it. -/
theorem find?_remove (p k : Location) (name : String) :
    (s.remove p name).find? k
      = if k = p ++ [name] then none else (s.find? k).map (Node.detachAt k p name) := by
  rw [remove, find?_detach, find?_erase]
  by_cases hk : k = p ++ [name]
  · rw [if_pos hk, if_pos hk, Option.map_none]
  · rw [if_neg hk, if_neg hk]

/-! ## Moving nodes one by one -/

variable {source target : Location}

/-- Moving one node below the source takes it to the same place below the target. -/
theorem find?_moveNode (r k : Location) :
    (moveNode source target s (source ++ r)).find? k
      = match s.find? (source ++ r) with
        | some node =>
          if k = target ++ r then some node else if k = source ++ r then none else s.find? k
        | none => s.find? k := by
  unfold moveNode
  cases s.find? (source ++ r) with
  | none => rfl
  | some node =>
    simp only [find?_put, find?_erase, Catalogue.rebase_append]

/-- Where the nodes at `order` are found once they were moved, in whatever order they stand there. -/
structure Moved (source target : Location) (order : List Location) (s t : Store) : Prop where
  /-- Nothing is left where they were. -/
  gone : ∀ r, source ++ r ∈ order → t.find? (source ++ r) = none
  /-- They are at the same place below the target. -/
  here : ∀ r, source ++ r ∈ order →
    t.find? (target ++ r) = (s.find? (source ++ r)).or (s.find? (target ++ r))
  /-- Everything else is where it was. -/
  other : ∀ k, k ∉ order → (∀ r, source ++ r ∈ order → k ≠ target ++ r) → t.find? k = s.find? k

/-- Moving nodes below the source one by one moves them all. -/
theorem moved_moveNodes (hapart : source.Apart target) :
    ∀ (order : List Location) (s : Store), order.Nodup → (∀ k ∈ order, source <+: k) →
      Moved source target order s (s.moveNodes source target order)
  | [], _, _, _ =>
    ⟨fun _ h => absurd h List.not_mem_nil, fun _ h => absurd h List.not_mem_nil, fun _ _ _ => rfl⟩
  | k :: order, s, hnodup, hbelow => by
    obtain ⟨hk, hrest⟩ := List.nodup_cons.mp hnodup
    obtain ⟨r₀, rfl⟩ := hbelow k List.mem_cons_self
    have ih := moved_moveNodes hapart order (moveNode source target s (source ++ r₀)) hrest
      fun m hm => hbelow m (List.mem_cons_of_mem _ hm)
    -- What the first step does, at the four kinds of places that matter.
    have hgone : (moveNode source target s (source ++ r₀)).find? (source ++ r₀) = none := by
      rw [find?_moveNode]
      cases hf : s.find? (source ++ r₀) with
      | none => rfl
      | some node =>
        change (if _ then _ else _) = none
        rw [if_neg (hapart.append_ne _ _), if_pos rfl]
    have hhere : (moveNode source target s (source ++ r₀)).find? (target ++ r₀)
        = (s.find? (source ++ r₀)).or (s.find? (target ++ r₀)) := by
      rw [find?_moveNode]
      cases hf : s.find? (source ++ r₀) with
      | none => exact Option.none_or.symm
      | some node => exact if_pos rfl
    have hother : ∀ m, m ≠ source ++ r₀ → m ≠ target ++ r₀ →
        (moveNode source target s (source ++ r₀)).find? m = s.find? m := by
      intro m hsource htarget
      rw [find?_moveNode]
      cases s.find? (source ++ r₀) with
      | none => rfl
      | some node =>
        change (if _ then _ else _) = _
        rw [if_neg htarget, if_neg hsource]
    have htarget : ∀ r, target ++ r ∉ order := fun r hr =>
      hapart.not_within_of_within (hbelow _ (List.mem_cons_of_mem _ hr)) (List.prefix_append _ _)
    have hne : ∀ {r}, source ++ r ∈ order → r ≠ r₀ := fun hr heq => hk (heq ▸ hr)
    have hlast : ∀ r, source ++ r ∈ order → target ++ r₀ ≠ target ++ r := fun r hr heq =>
      hne hr (List.append_cancel_left heq).symm
    refine ⟨fun r hr => ?_, fun r hr => ?_, fun m hm hplace => ?_⟩
    · rcases List.mem_cons.mp hr with heq | hr
      · rw [heq]
        exact (ih.other _ hk fun r' _ => hapart.append_ne _ _).trans hgone
      · exact ih.gone r hr
    · rcases List.mem_cons.mp hr with heq | hr
      · obtain rfl := List.append_cancel_left heq
        exact (ih.other _ (htarget r) hlast).trans hhere
      · have hr₀ := hne hr
        refine (ih.here r hr).trans ?_
        rw [hother _ (fun h => hr₀ (List.append_cancel_left h)) (hapart.append_ne _ _),
          hother _ (hapart.append_ne _ _).symm (fun h => hr₀ (List.append_cancel_left h))]
    · have hm' : m ≠ source ++ r₀ := fun h => hm (h ▸ List.mem_cons_self)
      refine (ih.other m (fun h => hm (List.mem_cons_of_mem _ h))
        (fun r hr => hplace r (List.mem_cons_of_mem _ hr))).trans ?_
      exact hother m hm' (hplace r₀ List.mem_cons_self)

/-- The locations within a base are those at which something is found. -/
theorem mem_within {base k : Location} :
    k ∈ s.within base ↔ base <+: k ∧ (s.find? k).isSome = true := by
  rw [within, List.mem_filter, Location.isWithin_iff]
  exact and_comm.trans (and_congr_right fun _ => (Catalogue.isSome_find? s.entries k).symm)

/-- Moving nodes uses up no inode number. -/
@[simp]
theorem nextIno_moveNodes (order : List Location) :
    (s.moveNodes source target order).nextIno = s.nextIno := by
  unfold moveNodes
  induction order generalizing s with
  | nil => rfl
  | cons k order ih =>
    rw [List.foldl_cons, ih]
    unfold moveNode
    split <;> rfl

@[simp]
theorem nextIno_attach (p : Location) (name : String) : (s.attach p name).nextIno = s.nextIno := by
  unfold attach adjust
  split <;> rfl

@[simp]
theorem nextIno_detach (p : Location) (name : String) : (s.detach p name).nextIno = s.nextIno := by
  unfold detach adjust
  split <;> rfl

/-! ## Every location stands once -/

/-- Whether no location stands twice in the catalogue. -/
def KeysNodup (s : Store) : Prop := (s.entries.map Prod.fst).Nodup

namespace KeysNodup

theorem put (h : s.KeysNodup) (l : Location) (node : Node) : (s.put l node).KeysNodup :=
  Catalogue.nodup_keys_put h l node

theorem erase (h : s.KeysNodup) (l : Location) : (s.erase l).KeysNodup :=
  Catalogue.nodup_keys_erase h l

theorem adjust (h : s.KeysNodup) (l : Location) (f : Node → Node) : (s.adjust l f).KeysNodup := by
  unfold Store.adjust
  split
  · exact h.put _ _
  · exact h

theorem moveNodes (h : s.KeysNodup) (order : List Location) :
    (s.moveNodes source target order).KeysNodup := by
  unfold Store.moveNodes
  induction order generalizing s with
  | nil => exact h
  | cons k order ih =>
    rw [List.foldl_cons]
    refine ih ?_
    unfold moveNode
    split
    · exact (h.erase _).put _ _
    · exact h

end KeysNodup

end Store

end FileProvider.Memory
