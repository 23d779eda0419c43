import FileProvider.Proofs.Memory.Relocation

/-!
# Stores apart from their inode numbers

Two ways of moving a tree give the nodes different inode numbers and are otherwise to be the same.
`Store.view` shows what is at a location without its inode number, and `Store.Transferred` says what
is seen everywhere once a tree has another place. All stores that came about so from one store are
alike, whatever was done on the way.
-/

set_option autoImplicit false

namespace FileProvider.Memory

namespace Node

/-- The node with no inode number to tell it from others. -/
def plain : Node → Node
  | .file _ data => .file 0 data
  | .dir _ names => .dir 0 names

variable {here p : Location} {n : String} {node : Node}

@[simp]
theorem names_plain : node.plain.names = node.names := by
  cases node <;> rfl

theorem plain_attachAt : (node.attachAt here p n).plain = node.plain.attachAt here p n := by
  unfold attachAt
  split
  · cases node <;> rfl
  · rfl

theorem plain_detachAt : (node.detachAt here p n).plain = node.plain.detachAt here p n := by
  unfold detachAt
  split
  · cases node <;> rfl
  · rfl

end Node

namespace Store

variable {s t u : Store} {p q l k : Location} {n m : String}

/-- What is seen at a location: what is there, without its inode number. -/
def view (s : Store) (l : Location) : Option Node := (s.find? l).map Node.plain

/-- Whether the same is seen everywhere in two stores: the same kinds, contents and listings. -/
def Alike (s t : Store) : Prop := ∀ l, s.view l = t.view l

/-! ## Views -/

theorem view_of_find? {node : Node} (h : s.find? l = some node) : s.view l = some node.plain := by
  rw [view, h, Option.map_some]

theorem isSome_view : (s.view l).isSome = (s.find? l).isSome := Option.isSome_map

theorem view_eq_none : s.view l = none ↔ s.find? l = none := Option.map_eq_none_iff

/-- What is seen without a listing is a file with that content. -/
theorem find?_of_view_file {data : Bytes} (h : s.view l = some (.file 0 data)) :
    ∃ ino, s.find? l = some (.file ino data) := by
  obtain ⟨node, hnode, hplain⟩ := Option.map_eq_some_iff.mp h
  cases node with
  | file ino found =>
    cases hplain
    exact ⟨ino, hnode⟩
  | dir ino names => cases hplain

/-- What is seen with a listing is a directory with that listing. -/
theorem find?_of_view_dir {names : List String} (h : s.view l = some (.dir 0 names)) :
    ∃ ino, s.find? l = some (.dir ino names) := by
  obtain ⟨node, hnode, hplain⟩ := Option.map_eq_some_iff.mp h
  cases node with
  | file ino data => cases hplain
  | dir ino found =>
    cases hplain
    exact ⟨ino, hnode⟩

theorem names_of_view {names : List String} (h : s.view l = some (.dir 0 names)) :
    s.names l = names := by
  obtain ⟨ino, hl⟩ := find?_of_view_dir h
  exact names_of_find? hl

theorem isDir_of_view {names : List String} (h : s.view l = some (.dir 0 names)) : s.IsDir l := by
  obtain ⟨ino, hl⟩ := find?_of_view_dir h
  exact ⟨ino, names, hl⟩

/-- What is found there after something was added is seen there. -/
theorem view_add (p k : Location) (n : String) (node : Nat → Node) :
    (s.add p n node).view k
      = if k = p ++ [n] then some (node s.nextIno).plain else (s.view k).map (Node.attachAt k p n) := by
  rw [view, find?_add]
  split
  · rfl
  · rw [view, Option.map_map, Option.map_map]
    exact congrArg (Option.map · _) (funext fun node => Node.plain_attachAt)

/-- A new node is seen where it was added. -/
theorem view_add_self (p : Location) (n : String) (node : Nat → Node) :
    (s.add p n node).view (p ++ [n]) = some (node s.nextIno).plain := by
  rw [view_add, if_pos rfl]

theorem view_remove (p k : Location) (n : String) :
    (s.remove p n).view k
      = if k = p ++ [n] then none else (s.view k).map (Node.detachAt k p n) := by
  rw [view, find?_remove]
  split
  · rfl
  · rw [view, Option.map_map, Option.map_map]
    exact congrArg (Option.map · _) (funext fun node => Node.plain_detachAt)

/-! ## Trees that have another place -/

/-- What is seen once the tree at `p ++ [n]` has the place `q ++ [m]`, as the last entry there. -/
structure Transferred (p : Location) (n : String) (q : Location) (m : String) (s t : Store) :
    Prop where
  /-- Nothing is left where it was. -/
  gone : ∀ r, t.view (p ++ [n] ++ r) = none
  /-- Everything is seen at the new place. -/
  here : ∀ r, t.view (q ++ [m] ++ r) = s.view (p ++ [n] ++ r)
  /-- Elsewhere nothing but the listings of the two parents differs. -/
  other : ∀ k, ¬ p ++ [n] <+: k → ¬ q ++ [m] <+: k →
    t.view k = ((s.view k).map (Node.detachAt k p n)).map (Node.attachAt k q m)

/-- However a tree came to another place, the same is seen. -/
theorem Transferred.alike (ht : Transferred p n q m s t) (hu : Transferred p n q m s u) :
    t.Alike u := by
  intro k
  rcases Location.within_cases (p ++ [n]) (q ++ [m]) k with ⟨r, rfl⟩ | ⟨r, rfl⟩ | ⟨hp, hq⟩
  · rw [ht.gone, hu.gone]
  · rw [ht.here, hu.here]
  · rw [ht.other k hp hq, hu.other k hp hq]

/-- Rewriting the locations of all nodes in a tree gives it another place. -/
theorem transferred_relocated (h : s.WellFormed) (hapart : Location.Apart (p ++ [n]) (q ++ [m]))
    (hroom : ∀ found, s.find? (q ++ [m]) = some found → found.names = []) :
    Transferred p n q m s (s.relocated p n q m) where
  gone r := by rw [view_eq_none, find?_relocated_source h hapart]
  here r := by rw [view, find?_relocated_target h hapart hroom, view]
  other k hp hq := by
    rw [view, find?_relocated_other h hapart hp hq, view, Option.map_map, Option.map_map,
      Option.map_map, Option.map_map]
    refine congrArg (Option.map · _) (funext fun node => ?_)
    rw [Function.comp_apply, Function.comp_apply, Function.comp_apply, Function.comp_apply,
      Node.plain_attachAt, Node.plain_detachAt]

end Store

end FileProvider.Memory
