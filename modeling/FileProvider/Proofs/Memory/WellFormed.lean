import FileProvider.Proofs.Memory.Operations
import FileProvider.Proofs.Path.Location

/-!
# Well-formed stores

A store keeps its tree twice, and it is well-formed if the two agree: there is something at the child
of a location exactly if the location is a directory that lists the child's name. The changes that the
operations make keep a store well-formed, each under the conditions that its operation has checked.
-/

set_option autoImplicit false

namespace FileProvider.Memory

namespace Store

/-- What a store keeps up whatever its directories list. -/
structure Sane (s : Store) : Prop where
  /-- The root is a directory. -/
  root : s.IsDir []
  /-- Every location is that of an absolute path from which nothing is left to clean. -/
  proper : ∀ l, (s.find? l).isSome = true → l.Proper
  /-- No directory lists a name twice. -/
  once : ∀ l node, s.find? l = some node → node.names.Nodup
  /-- The next inode number is larger than all in use. -/
  ino_lt : ∀ l node, s.find? l = some node → node.ino < s.nextIno
  /-- No two nodes have the same inode number. -/
  ino_inj : ∀ l k node other, s.find? l = some node → s.find? k = some other →
    node.ino = other.ino → l = k
  /-- No location stands twice in the catalogue. -/
  keys : s.KeysNodup

/-- Whether a store holds one tree: there is a child exactly if its parent is a directory that lists
it. -/
structure WellFormed (s : Store) : Prop extends Sane s where
  /-- The catalogue and the listings agree. -/
  listed : ∀ p n, (s.find? (p ++ [n])).isSome = true ↔ n ∈ s.names p

variable {s t : Store} {p q l k : Location} {n m : String}

/-! ## Names -/

theorem names_of_find? {node : Node} (h : s.find? l = some node) : s.names l = node.names := by
  rw [names, h]
  rfl

theorem names_of_none (h : s.find? l = none) : s.names l = [] := by
  rw [names, h]
  rfl

/-- The names that are listed depend on what is found alone. -/
theorem names_congr (h : t.find? l = s.find? l) : t.names l = s.names l := by
  rw [names, h, names]

/-- A name is listed exactly at a directory that lists it. -/
theorem mem_names_iff :
    n ∈ s.names p ↔ ∃ ino names, s.find? p = some (.dir ino names) ∧ n ∈ names := by
  constructor
  · intro h
    cases hp : s.find? p with
    | none => exact absurd (names_of_none hp ▸ h) List.not_mem_nil
    | some node =>
      rw [names_of_find? hp] at h
      cases node with
      | file ino data => exact absurd h List.not_mem_nil
      | dir ino names => exact ⟨ino, names, rfl, h⟩
  · rintro ⟨ino, names, hp, hn⟩
    rw [names_of_find? hp]
    exact hn

theorem isDir_of_mem_names (h : n ∈ s.names p) : s.IsDir p := by
  obtain ⟨ino, names, hp, _⟩ := mem_names_iff.mp h
  exact ⟨ino, names, hp⟩

/-- A location is a directory if the node there is one. -/
theorem isDir_iff : s.IsDir l ↔ ∃ node, s.find? l = some node ∧ node.isDir = true := by
  constructor
  · rintro ⟨ino, names, hl⟩
    exact ⟨_, hl, rfl⟩
  · rintro ⟨node, hl, hdir⟩
    cases node with
    | file ino data => cases hdir
    | dir ino names => exact ⟨ino, names, hl⟩

theorem IsDir.isSome (h : s.IsDir l) : (s.find? l).isSome = true := by
  obtain ⟨ino, names, hl⟩ := h
  rw [hl]
  rfl

theorem mem_names_attach (hp : s.IsDir p) :
    m ∈ (s.attach p n).names q ↔ m ∈ s.names q ∨ q = p ∧ m = n := by
  cases hq : s.find? q with
  | none =>
    have hnone : (s.attach p n).find? q = none := by rw [find?_attach, hq, Option.map_none]
    have hne : q ≠ p := by
      rintro rfl
      have := hp.isSome
      rw [hq] at this
      cases this
    rw [names_of_none hnone, names_of_none hq, or_iff_left fun h => hne h.1]
  | some node =>
    have hsome : (s.attach p n).find? q = some (node.attachAt q p n) := by
      rw [find?_attach, hq, Option.map_some]
    rw [names_of_find? hsome, names_of_find? hq]
    refine Node.mem_names_attachAt ?_
    rintro rfl
    obtain ⟨found, hfound, hdir⟩ := isDir_iff.mp hp
    obtain rfl := Option.some.inj (hq.symm.trans hfound)
    exact hdir

theorem mem_names_detach :
    m ∈ (s.detach p n).names q ↔ m ∈ s.names q ∧ ¬ (q = p ∧ m = n) := by
  cases hq : s.find? q with
  | none =>
    have hnone : (s.detach p n).find? q = none := by rw [find?_detach, hq, Option.map_none]
    rw [names_of_none hnone, names_of_none hq, and_iff_left_of_imp fun h => nomatch h]
  | some node =>
    have hsome : (s.detach p n).find? q = some (node.detachAt q p n) := by
      rw [find?_detach, hq, Option.map_some]
    rw [names_of_find? hsome, names_of_find? hq]
    exact Node.mem_names_detachAt

/-! ## Sane stores -/

theorem sane_empty : Store.empty.Sane := by
  have hfind : ∀ {l node}, empty.find? l = some node → l = [] ∧ node = .dir 1 [] := by
    intro l node h
    rw [find?_empty] at h
    split at h
    · next hl => exact ⟨hl, (Option.some.inj h).symm⟩
    · cases h
  refine ⟨⟨1, [], rfl⟩, fun l hl => ?_, fun l node hl => ?_, fun l node hl => ?_,
    fun l k node other hl hk _ => (hfind hl).1.trans (hfind hk).1.symm, List.pairwise_singleton _ _⟩
  · obtain ⟨node, hnode⟩ := Option.isSome_iff_exists.mp hl
    exact (hfind hnode).1 ▸ Location.proper_nil
  · rw [(hfind hl).2]
    exact List.nodup_nil
  · rw [(hfind hl).2]
    exact Nat.lt_add_one 1

/-- A store is sane if every node comes from one of a sane store, no two from the same. -/
theorem Sane.of_origin (h : s.Sane) (origin : Location → Location) (hroot : t.IsDir [])
    (hproper : ∀ l, (t.find? l).isSome = true → l.Proper)
    (hnode : ∀ l node, t.find? l = some node → ∃ old, s.find? (origin l) = some old ∧
      node.ino = old.ino ∧ (old.names.Nodup → node.names.Nodup))
    (hinj : ∀ l k, (t.find? l).isSome = true → (t.find? k).isSome = true →
      origin l = origin k → l = k)
    (hnext : s.nextIno = t.nextIno) (hkeys : t.KeysNodup) : t.Sane where
  root := hroot
  proper := hproper
  once l node hl := by
    obtain ⟨old, hold, _, hnodup⟩ := hnode l node hl
    exact hnodup (h.once _ old hold)
  ino_lt l node hl := by
    obtain ⟨old, hold, hino, _⟩ := hnode l node hl
    rw [hino, ← hnext]
    exact h.ino_lt _ old hold
  ino_inj l k node other hl hk heq := by
    obtain ⟨old, hold, hino, _⟩ := hnode l node hl
    obtain ⟨old', hold', hino', _⟩ := hnode k other hk
    refine hinj l k (Option.isSome_iff_exists.mpr ⟨_, hl⟩) (Option.isSome_iff_exists.mpr ⟨_, hk⟩) ?_
    exact h.ino_inj _ _ old old' hold hold' (hino.symm.trans (heq.trans hino'))
  keys := hkeys

/-- A store is sane if it has no nodes but those of a sane store, at their old locations. -/
theorem Sane.of_same (h : s.Sane) (hroot : t.IsDir [])
    (hnode : ∀ l node, t.find? l = some node → ∃ old, s.find? l = some old ∧
      node.ino = old.ino ∧ (old.names.Nodup → node.names.Nodup))
    (hnext : s.nextIno = t.nextIno) (hkeys : t.KeysNodup) : t.Sane := by
  refine h.of_origin id hroot (fun l hl => ?_) hnode (fun _ _ _ _ heq => heq) hnext hkeys
  obtain ⟨node, hnodeL⟩ := Option.isSome_iff_exists.mp hl
  obtain ⟨old, hold, _⟩ := hnode l node hnodeL
  exact h.proper l (Option.isSome_iff_exists.mpr ⟨old, hold⟩)

theorem Sane.attach (h : s.Sane) (p : Location) (n : String) : (s.attach p n).Sane := by
  refine h.of_same ?_ (fun l node hl => ?_) (nextIno_attach p n).symm (h.keys.adjust _ _)
  · obtain ⟨node, hfind, hdir⟩ := isDir_iff.mp h.root
    exact isDir_iff.mpr ⟨_, by rw [find?_attach, hfind]; rfl, Node.isDir_attachAt.trans hdir⟩
  · rw [find?_attach] at hl
    obtain ⟨old, hold, rfl⟩ := Option.map_eq_some_iff.mp hl
    exact ⟨old, hold, Node.ino_attachAt, Node.nodup_names_attachAt⟩

theorem Sane.detach (h : s.Sane) (p : Location) (n : String) : (s.detach p n).Sane := by
  refine h.of_same ?_ (fun l node hl => ?_) (nextIno_detach p n).symm (h.keys.adjust _ _)
  · obtain ⟨node, hfind, hdir⟩ := isDir_iff.mp h.root
    exact isDir_iff.mpr ⟨_, by rw [find?_detach, hfind]; rfl, Node.isDir_detachAt.trans hdir⟩
  · rw [find?_detach] at hl
    obtain ⟨old, hold, rfl⟩ := Option.map_eq_some_iff.mp hl
    exact ⟨old, hold, Node.ino_detachAt, Node.nodup_names_detachAt⟩

theorem Sane.erase (h : s.Sane) (hl : l ≠ []) : (s.erase l).Sane := by
  refine h.of_same ?_ (fun k node hk => ?_) rfl (h.keys.erase _)
  · obtain ⟨ino, names, hroot⟩ := h.root
    exact ⟨ino, names, by rw [find?_erase, if_neg hl.symm, hroot]⟩
  · rw [find?_erase] at hk
    split at hk
    · cases hk
    · exact ⟨node, hk, rfl, id⟩

/-- A file may be given another content. -/
theorem Sane.put_file (h : s.Sane) {ino : Nat} {old data : Bytes}
    (hl : s.find? l = some (.file ino old)) : (s.put l (.file ino data)).Sane := by
  refine h.of_same ?_ (fun k node hk => ?_) rfl (h.keys.put _ _)
  · obtain ⟨rootIno, names, hroot⟩ := h.root
    have hne : [] ≠ l := by
      rintro rfl
      cases hroot.symm.trans hl
    exact ⟨rootIno, names, by rw [find?_put, if_neg hne, hroot]⟩
  · rw [find?_put] at hk
    split at hk
    · next hkl =>
      obtain rfl := Option.some.inj hk
      exact ⟨.file ino old, hkl ▸ hl, rfl, fun _ => List.nodup_nil⟩
    · exact ⟨node, hk, rfl, id⟩

/-- The next inode number may be used up before or after the name of the new node is attached. -/
theorem add_eq (p : Location) (n : String) (node : Nat → Node) :
    s.add p n node
      = Store.attach { s.put (p ++ [n]) (node s.nextIno) with nextIno := s.nextIno + 1 } p n := by
  have hfind : Store.find? { s.put (p ++ [n]) (node s.nextIno) with nextIno := s.nextIno + 1 } p
      = (s.put (p ++ [n]) (node s.nextIno)).find? p := rfl
  unfold Store.add Store.attach Store.adjust
  rw [hfind]
  cases (s.put (p ++ [n]) (node s.nextIno)).find? p <;> rfl

/-- A node with the next inode number may be put at a free place. -/
theorem Sane.put_new (h : s.Sane) (hl : l.Proper) (hfree : s.find? l = none) {node : Node}
    (hino : node.ino = s.nextIno) (hnames : node.names = []) :
    Sane { s.put l node with nextIno := s.nextIno + 1 } := by
  have hfind : ∀ k, Store.find? { s.put l node with nextIno := s.nextIno + 1 } k
      = if k = l then some node else s.find? k := fun k => find?_put l k node
  have hcases : ∀ {k found}, Store.find? { s.put l node with nextIno := s.nextIno + 1 } k
      = some found → k = l ∧ found = node ∨ k ≠ l ∧ s.find? k = some found := by
    intro k found hk
    rw [hfind] at hk
    split at hk
    · next hkl => exact .inl ⟨hkl, (Option.some.inj hk).symm⟩
    · next hkl => exact .inr ⟨hkl, hk⟩
  refine ⟨?_, fun k hk => ?_, fun k found hk => ?_, fun k found hk => ?_,
    fun k k' found other hk hk' heq => ?_, h.keys.put _ _⟩
  · obtain ⟨ino, names, hroot⟩ := h.root
    have hne : [] ≠ l := by
      rintro rfl
      cases hfree.symm.trans hroot
    exact ⟨ino, names, by rw [hfind, if_neg hne, hroot]⟩
  · obtain ⟨found, hfound⟩ := Option.isSome_iff_exists.mp hk
    rcases hcases hfound with ⟨rfl, _⟩ | ⟨_, hold⟩
    · exact hl
    · exact h.proper k (Option.isSome_iff_exists.mpr ⟨found, hold⟩)
  · rcases hcases hk with ⟨_, rfl⟩ | ⟨_, hold⟩
    · exact hnames ▸ List.nodup_nil
    · exact h.once k found hold
  · change found.ino < s.nextIno + 1
    rcases hcases hk with ⟨_, rfl⟩ | ⟨_, hold⟩
    · rw [hino]
      exact Nat.lt_add_one _
    · exact Nat.lt_add_right 1 (h.ino_lt k found hold)
  · rcases hcases hk with ⟨rfl, rfl⟩ | ⟨_, hold⟩ <;> rcases hcases hk' with ⟨rfl, rfl⟩ | ⟨_, hold'⟩
    · rfl
    · exact absurd (heq.symm.trans hino) (Nat.ne_of_lt (h.ino_lt k' other hold'))
    · exact absurd (heq.trans hino) (Nat.ne_of_lt (h.ino_lt k found hold))
    · exact h.ino_inj k k' found other hold hold' heq

/-! ## Well-formed stores -/

namespace WellFormed

section

variable (h : s.WellFormed)

include h

theorem nodup_names (l : Location) : (s.names l).Nodup := by
  cases hl : s.find? l with
  | none => exact names_of_none hl ▸ List.nodup_nil
  | some node => exact names_of_find? hl ▸ h.once l node hl

theorem isDir_parent (hchild : (s.find? (p ++ [n])).isSome = true) : s.IsDir p :=
  isDir_of_mem_names ((h.listed p n).mp hchild)

theorem isName (hn : n ∈ s.names p) : IsName n :=
  h.proper _ ((h.listed p n).mpr hn) n (List.mem_append_right _ List.mem_cons_self)

/-- What is there has a name that is text. -/
theorem isText (hsome : (s.find? (p ++ [n])).isSome = true) : Name.isText n = true :=
  (Location.proper_child.mp (h.proper _ hsome)).2.isText

/-- Nothing is there under a name that is no text. -/
theorem none_of_foreign (hn : Name.isText n = false) : s.find? (p ++ [n]) = none :=
  Option.not_isSome_iff_eq_none.mp fun hsome => Bool.noConfusion (hn.symm.trans (h.isText hsome))

/-- An entry can come to where there is one. -/
theorem admits (hl : l ≠ []) (hsome : (s.find? l).isSome = true) : s.Admits l := by
  obtain ⟨p, n, rfl⟩ := Location.exists_eq_append hl
  exact ⟨p, n, rfl, h.isText hsome, h.isDir_parent hsome⟩

/-- An entry can come to where a file is. -/
theorem admits_file {ino : Nat} {data : Bytes} (hfile : s.find? l = some (.file ino data)) : s.Admits l := by
  refine h.admits ?_ (Option.isSome_iff_exists.mpr ⟨_, hfile⟩)
  rintro rfl
  obtain ⟨rootIno, names, hroot⟩ := h.root
  cases hroot.symm.trans hfile

/-- Above everything there are directories. -/
theorem isDir_above (r : Location) (hne : r ≠ []) (hbelow : (s.find? (l ++ r)).isSome = true) :
    s.IsDir l := by
  induction r generalizing l with
  | nil => exact absurd rfl hne
  | cons n r ih =>
    by_cases hr : r = []
    · exact h.isDir_parent (hr ▸ hbelow)
    · rw [List.append_cons] at hbelow
      exact h.isDir_parent (ih hr hbelow).isSome

/-- What lies above a directory, or is it, is a directory. -/
theorem isDir_of_append (r : Location) (hdir : s.IsDir (l ++ r)) : s.IsDir l := by
  by_cases hr : r = []
  · rw [hr, List.append_nil] at hdir
    exact hdir
  · exact h.isDir_above r hr hdir.isSome

/-- What lies above a place in a directory is a directory. -/
theorem isDir_of_place {r : Location} (hr : r ≠ []) (hplace : q ++ [m] = l ++ r) (hq : s.IsDir q) :
    s.IsDir l := by
  obtain ⟨r', n, rfl⟩ := Location.exists_eq_append hr
  rw [← List.append_assoc] at hplace
  exact h.isDir_of_append r' ((Location.child_inj.mp hplace).1 ▸ hq)

/-- What lies above something is something. -/
theorem isSome_above (r : Location) (hbelow : (s.find? (l ++ r)).isSome = true) :
    (s.find? l).isSome = true := by
  by_cases hr : r = []
  · rw [hr, List.append_nil] at hbelow
    exact hbelow
  · exact (h.isDir_above r hr hbelow).isSome

/-- A directory lists the entry on the way to what lies below it. -/
theorem listed_above {r : Location} (hbelow : (s.find? (l ++ n :: r)).isSome = true) :
    n ∈ s.names l := by
  rw [← h.listed]
  refine h.isSome_above r ?_
  rwa [← List.append_cons]

/-- There is nothing below nothing. -/
theorem none_below (hl : s.find? l = none) (r : Location) : s.find? (l ++ r) = none := by
  rw [← Option.not_isSome_iff_eq_none]
  intro hsome
  have habove := h.isSome_above r hsome
  rw [hl] at habove
  cases habove

/-- There is nothing below a node that lists nothing. -/
theorem none_below_empty (hl : s.names l = []) {r : Location} (hr : r ≠ []) :
    s.find? (l ++ r) = none := by
  obtain ⟨n, r, rfl⟩ := List.exists_cons_of_ne_nil hr
  rw [List.append_cons]
  refine h.none_below ?_ r
  rw [← Option.not_isSome_iff_eq_none, h.listed, hl]
  exact List.not_mem_nil

end

theorem empty : Store.empty.WellFormed := by
  refine ⟨sane_empty, fun p n => ?_⟩
  rw [find?_empty, if_neg (List.concat_ne_nil n p), names, find?_empty]
  split
  · exact ⟨fun h => absurd h Bool.false_ne_true, fun h => absurd h List.not_mem_nil⟩
  · exact ⟨fun h => absurd h Bool.false_ne_true, fun h => absurd h List.not_mem_nil⟩

/-- Giving a file another content keeps a store well-formed. -/
theorem put_file (h : s.WellFormed) {ino : Nat} {old data : Bytes}
    (hl : s.find? l = some (.file ino old)) : (s.put l (.file ino data)).WellFormed := by
  refine ⟨h.toSane.put_file hl, fun p n => ?_⟩
  have hsome : ((s.put l (.file ino data)).find? (p ++ [n])).isSome = (s.find? (p ++ [n])).isSome := by
    rw [find?_put]
    split
    · next heq => rw [heq, hl, Option.isSome_some, Option.isSome_some]
    · rfl
  have hnames : (s.put l (.file ino data)).names p = s.names p := by
    by_cases hp : p = l
    · have hput : (s.put l (.file ino data)).find? p = some (.file ino data) := by
        rw [find?_put, if_pos hp]
      rw [names_of_find? hput, names_of_find? (hp ▸ hl)]
      rfl
    · exact names_congr (by rw [find?_put, if_neg hp])
  rw [hsome, hnames, h.listed]

/-- Adding a new node to a directory keeps a store well-formed. -/
theorem add (h : s.WellFormed) {node : Nat → Node} (hp : s.IsDir p) (hn : IsName n)
    (hfree : s.find? (p ++ [n]) = none) (hino : (node s.nextIno).ino = s.nextIno)
    (hnames : (node s.nextIno).names = []) : (s.add p n node).WellFormed := by
  have hproper : Location.Proper (p ++ [n]) :=
    Location.proper_child.mpr ⟨h.proper p hp.isSome, hn⟩
  -- The listings after the node was put and before its name was attached.
  have hput : ∀ q, (s.put (p ++ [n]) (node s.nextIno)).names q = s.names q := by
    intro q
    by_cases hq : q = p ++ [n]
    · have hfind : (s.put (p ++ [n]) (node s.nextIno)).find? q = some (node s.nextIno) := by
        rw [find?_put, if_pos hq]
      rw [names_of_find? hfind, hnames, names_of_none (hq ▸ hfree)]
    · exact names_congr (by rw [find?_put, if_neg hq])
  have hdir : (s.put (p ++ [n]) (node s.nextIno)).IsDir p := by
    obtain ⟨ino, names, hfind⟩ := hp
    exact ⟨ino, names, by rw [find?_put, if_neg (Location.ne_child p n), hfind]⟩
  refine ⟨add_eq p n node ▸ (h.toSane.put_new hproper hfree hino hnames).attach p n, fun q m => ?_⟩
  change ((s.add p n node).find? (q ++ [m])).isSome = true ↔
    m ∈ ((s.put (p ++ [n]) (node s.nextIno)).attach p n).names q
  rw [mem_names_attach hdir, hput, ← h.listed, ← Location.child_inj, find?_add]
  by_cases hchild : q ++ [m] = p ++ [n]
  · rw [if_pos hchild]
    exact ⟨fun _ => .inr hchild, fun _ => rfl⟩
  · rw [if_neg hchild, Option.isSome_map, or_iff_left hchild]

/-- Removing a node that lists nothing keeps a store well-formed. -/
theorem remove (h : s.WellFormed) (hempty : s.names (p ++ [n]) = []) :
    (s.remove p n).WellFormed := by
  refine ⟨(h.toSane.erase (List.concat_ne_nil n p)).detach p n, fun q m => ?_⟩
  have herase : (s.erase (p ++ [n])).names q = s.names q := by
    by_cases hq : q = p ++ [n]
    · have hnone : (s.erase (p ++ [n])).find? q = none := by rw [find?_erase, if_pos hq]
      rw [names_of_none hnone, hq, hempty]
    · exact names_congr (by rw [find?_erase, if_neg hq])
  rw [Store.remove, mem_names_detach, herase, ← h.listed, ← Location.child_inj, ← Store.remove,
    find?_remove]
  by_cases hchild : q ++ [m] = p ++ [n]
  · rw [if_pos hchild]
    exact ⟨fun hf => absurd hf Bool.false_ne_true, fun hf => absurd hchild hf.2⟩
  · rw [if_neg hchild, Option.isSome_map, and_iff_left hchild]

section

variable (h : s.WellFormed) (hp : s.IsDir p) (hfree : s.find? (p ++ [n]) = none)

include h hp hfree

theorem exists_names_free : ∃ ino names, s.find? p = some (.dir ino names) ∧ n ∉ names := by
  obtain ⟨ino, names, hdir⟩ := hp
  refine ⟨ino, names, hdir, fun hmem => ?_⟩
  have hthere := (h.listed p n).mpr (mem_names_iff.mpr ⟨ino, names, hdir, hmem⟩)
  rw [hfree] at hthere
  cases hthere

/-- A directory lists a new entry behind the others. -/
theorem names_add (node : Nat → Node) : (s.add p n node).names p = s.names p ++ [n] := by
  obtain ⟨ino, names, hdir, hnot⟩ := h.exists_names_free hp hfree
  have hfind : (s.add p n node).find? p = some (.dir ino (names ++ [n])) := by
    rw [find?_add, if_neg (Location.ne_child p n), hdir, Option.map_some, Node.attachAt_self,
      Node.attach_dir hnot]
  rw [names_of_find? hfind, names_of_find? hdir]
  rfl

/-- Removing what was added brings back the store, but for the inode number that was used up. -/
theorem remove_add (node : Nat → Node) : (s.add p n node).remove p n = { s with nextIno := s.nextIno + 1 } := by
  obtain ⟨ino, names, hdir, hnot⟩ := h.exists_names_free hp hfree
  have hne := Location.ne_child p n
  have hput : (s.put (p ++ [n]) (node s.nextIno)).find? p = some (.dir ino names) := by
    rw [find?_put, if_neg hne, hdir]
  have hadd : (s.add p n node).entries
      = (s.entries.put (p ++ [n]) (node s.nextIno)).put p (.dir ino (names ++ [n])) := by
    rw [Store.add, attach, adjust_of_find? hput, Node.attach_dir hnot]
    rfl
  have herase : ((s.add p n node).erase (p ++ [n])).entries = s.entries.put p (.dir ino (names ++ [n])) := by
    rw [Store.erase, hadd, Catalogue.erase_put_of_ne _ hne.symm, Catalogue.erase_put_self hfree]
  have hfind : ((s.add p n node).erase (p ++ [n])).find? p = some (.dir ino (names ++ [n])) := by
    rw [find?, herase, Catalogue.find?_put, if_pos rfl]
  have hdetach : (s.add p n node).remove p n
      = ((s.add p n node).erase (p ++ [n])).put p (.dir ino names) := by
    rw [Store.remove, detach, adjust_of_find? hfind, Node.detach_dir hnot]
  have hentries : ((s.add p n node).remove p n).entries = s.entries := by
    rw [hdetach, put, herase, Catalogue.put_put, Catalogue.put_same h.keys hdir]
  have hnext : ((s.add p n node).remove p n).nextIno = s.nextIno + 1 := by
    rw [hdetach]
    rfl
  rw [← hentries, ← hnext]

end

end WellFormed

end Store

end FileProvider.Memory
