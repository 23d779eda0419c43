import FileProvider.Proofs.Memory.View

/-!
# Trees put on top of each other

A move by copying puts one tree on top of another: directories that are in both become one, and files
give way to what comes. `merged` says what is seen at one place afterwards. Two trees clash where the one
has a file and the other a directory. Where nothing was before, a merge is a transfer.
-/

set_option autoImplicit false

namespace FileProvider.Memory

/-- What becomes of a node when another one is put on top of it: a file gives way, and a directory lists
the names that are new to it behind its own. -/
def Node.receive (present incoming : Node) : Node :=
  match present with
  | .file _ _ => incoming
  | .dir ino names => .dir ino (names ++ incoming.names.filter (· ∉ names))

@[simp]
theorem Node.isDir_plain (node : Node) : node.plain.isDir = node.isDir := by
  cases node <;> rfl

/-- What is seen where `incoming` was put on top of `present`. -/
def merged : (incoming present : Option Node) → Option Node
  | incoming, none => incoming
  | none, some present => some present
  | some incoming, some present => some (present.receive incoming)

@[simp]
theorem merged_none_right (incoming : Option Node) : merged incoming none = incoming := by
  cases incoming <;> rfl

@[simp]
theorem merged_none_left (present : Option Node) : merged none present = present := by
  cases present <;> rfl

namespace Store

variable {s t u : Store} {p q l k l' k' : Location} {n m : String}

/-- Whether there is a file at one of two places and a directory at the other. -/
def Clash (s : Store) (l k : Location) : Prop :=
  ∃ node found, s.find? l = some node ∧ s.find? k = some found ∧ node.isDir ≠ found.isDir

theorem clash_iff_view : s.Clash l k ↔
    ∃ node found, s.view l = some node ∧ s.view k = some found ∧ node.isDir ≠ found.isDir := by
  constructor
  · rintro ⟨node, found, hl, hk, hne⟩
    refine ⟨node.plain, found.plain, view_of_find? hl, view_of_find? hk, ?_⟩
    simpa using hne
  · rintro ⟨node, found, hl, hk, hne⟩
    obtain ⟨node, hnode, rfl⟩ := Option.map_eq_some_iff.mp hl
    obtain ⟨found, hfound, rfl⟩ := Option.map_eq_some_iff.mp hk
    refine ⟨node, found, hnode, hfound, ?_⟩
    simpa using hne

theorem clash_congr (hl : t.view l = s.view l') (hk : t.view k = s.view k') :
    t.Clash l k ↔ s.Clash l' k' := by
  rw [clash_iff_view, clash_iff_view, hl, hk]

theorem not_clash_of_none_left (h : s.find? l = none) : ¬ s.Clash l k := by
  rintro ⟨node, found, hl, hk, hne⟩
  simp [h] at hl

theorem not_clash_of_none_right (h : s.find? k = none) : ¬ s.Clash l k := by
  rintro ⟨node, found, hl, hk, hne⟩
  simp [h] at hk

/-- What is seen once the tree at `p ++ [n]` was put on top of what is at `q ++ [m]`. -/
structure Merged (p : Location) (n : String) (q : Location) (m : String) (s t : Store) : Prop where
  gone : ∀ r, t.view (p ++ [n] ++ r) = none
  /-- The new place shows both trees. -/
  here : ∀ r, t.view (q ++ [m] ++ r)
    = merged (s.view (p ++ [n] ++ r)) (s.view (q ++ [m] ++ r))
  /-- Elsewhere nothing but the listings of the two parents differs. -/
  other : ∀ k, ¬ p ++ [n] <+: k → ¬ q ++ [m] <+: k →
    t.view k = ((s.view k).map (Node.detachAt k p n)).map (Node.attachAt k q m)

theorem Merged.same (h : Merged p n q m s t) (hsource : ¬ p ++ [n] <+: k)
    (htarget : ¬ q ++ [m] <+: k) (hp : k ≠ p) (hq : k ≠ q) : t.view k = s.view k := by
  rw [h.other k hsource htarget]
  cases s.view k with
  | none => rfl
  | some node => simp only [Option.map_some, Node.detachAt_ne hp, Node.attachAt_ne hq]

/-- On top of nothing a tree is what it was. -/
theorem Merged.transferred (h : Merged p n q m s t) (hfree : ∀ r, s.find? (q ++ [m] ++ r) = none) :
    Transferred p n q m s t := by
  refine ⟨h.gone, fun r => ?_, h.other⟩
  rw [h.here, view_eq_none.mpr (hfree r), merged_none_right]

/-- A tree that shows at another place, on top of what was there, has been merged once it is removed. -/
theorem merged_remove (ht : (t.remove p n).WellFormed) (hapart : Location.Apart (p ++ [n]) (q ++ [m]))
    (hhere : ∀ r, t.view (q ++ [m] ++ r) = merged (s.view (p ++ [n] ++ r)) (s.view (q ++ [m] ++ r)))
    (hother : ∀ k, ¬ p ++ [n] <+: k → ¬ q ++ [m] <+: k →
      t.view k = (s.view k).map (Node.attachAt k q m)) :
    s.Merged p n q m (t.remove p n) := by
  refine ⟨fun r => ?_, fun r => ?_, fun k hsource htarget => ?_⟩
  · have hnone : (t.remove p n).view (p ++ [n]) = none := by rw [view_remove, if_pos rfl]
    exact view_eq_none.mpr (ht.none_below (view_eq_none.mp hnone) r)
  · have hp : q ++ [m] ++ r ≠ p := fun heq =>
      hapart.symm.not_within_parent (heq ▸ List.prefix_append _ r)
    have hsource : q ++ [m] ++ r ≠ p ++ [n] := fun heq =>
      hapart.not_within' (heq ▸ List.prefix_append _ r)
    rw [← hhere, view_remove, if_neg hsource]
    cases t.view (q ++ [m] ++ r) with
    | none => rfl
    | some node => rw [Option.map_some, Node.detachAt_ne hp]
  · have hne : k ≠ p ++ [n] := fun heq => hsource (heq ▸ List.prefix_refl _)
    rw [view_remove, if_neg hne, hother k hsource htarget, Option.map_map, Option.map_map]
    refine congrArg (Option.map · _) (funext fun node => ?_)
    apply Node.detachAt_attachAt
    intro heq
    exact hapart.not_within (Location.child_inj.mpr heq ▸ List.prefix_refl _)

/-! ## A place that receives -/

theorem view_add_other {node : Nat → Node} (h : ¬ q ++ [m] <+: k) :
    (s.add q m node).view k = (s.view k).map (Node.attachAt k q m) := by
  have hne : k ≠ q ++ [m] := fun heq => h (heq ▸ List.prefix_refl _)
  rw [view_add, if_neg hne]

/-- Below a place that was free there is nothing once a node was added there. -/
theorem WellFormed.view_add_below (h : s.WellFormed) (hfree : s.find? (q ++ [m]) = none)
    (node : Nat → Node) (c : String) (r : Location) :
    (s.add q m node).view (q ++ [m] ++ c :: r) = none := by
  have hne : q ++ [m] ++ c :: r ≠ q ++ [m] := (Location.ne_append _ (List.cons_ne_nil c r)).symm
  rw [view_add, if_neg hne, view_eq_none.mpr (h.none_below hfree _), Option.map_none]

/-- A name that is listed already is not attached again. -/
theorem WellFormed.view_attach (h : s.WellFormed) (hlisted : (s.find? (q ++ [m])).isSome = true)
    (k : Location) : (s.view k).map (Node.attachAt k q m) = s.view k := by
  by_cases hk : k = q
  · subst hk
    cases hview : s.view k with
    | none => rfl
    | some node =>
      have hmem : m ∈ node.names := by
        obtain ⟨found, hfound, rfl⟩ := Option.map_eq_some_iff.mp hview
        rw [Node.names_plain, ← names_of_find? hfound, ← h.listed]
        exact hlisted
      cases node with
      | file ino data => simp [Node.names] at hmem
      | dir ino names => simp [Node.attach, show m ∈ names from hmem]
  · cases s.view k with
    | none => rfl
    | some node => simp [Node.attachAt_ne hk]

/-- Whether a directory that lists `old` is ready at `q ++ [m]` to receive the entries of another one. -/
structure Receives (q : Location) (m : String) (old : List String) (s t : Store) : Prop where
  here : t.view (q ++ [m]) = some (.dir 0 old)
  below : ∀ c r, t.view (q ++ [m] ++ c :: r) = s.view (q ++ [m] ++ c :: r)
  other : ∀ k, ¬ q ++ [m] <+: k → t.view k = (s.view k).map (Node.attachAt k q m)
  /-- With the new names behind its own it is what a merge with what was there gives. -/
  names : ∀ names, merged (some (.dir 0 names)) (s.view (q ++ [m]))
    = some (.dir 0 (old ++ names.filter (· ∉ old)))

theorem receives_add (h : s.WellFormed) (hfree : s.find? (q ++ [m]) = none) :
    Receives q m [] s (s.add q m fun ino => .dir ino []) := by
  refine ⟨by simp [view_add_self, Node.plain], fun c r => ?_, fun k hk => view_add_other hk, ?_⟩
  · rw [h.view_add_below hfree, view_eq_none.mpr (h.none_below hfree _)]
  · simp [view_eq_none.mpr hfree]

theorem receives_self (h : s.WellFormed) {ino : Nat} {old : List String}
    (hdir : s.find? (q ++ [m]) = some (.dir ino old)) : Receives q m old s s := by
  have hview : s.view (q ++ [m]) = some (.dir 0 old) := view_of_find? hdir
  refine ⟨hview, fun _ _ => rfl, fun k _ => (h.view_attach (by simp [hdir]) k).symm, fun names => ?_⟩
  rw [hview]
  rfl

/-- What lies apart from the place that receives is the same. -/
theorem Receives.apart {old : List String} (h : Receives q m old s t)
    (hapart : Location.Apart (p ++ [n]) (q ++ [m])) (r : Location) :
    t.view (p ++ [n] ++ r) = s.view (p ++ [n] ++ r) := by
  have hq : p ++ [n] ++ r ≠ q := fun heq => hapart.not_within_parent (heq ▸ List.prefix_append _ r)
  rw [h.other _ (hapart.not_within_of_within (List.prefix_append _ r))]
  cases s.view (p ++ [n] ++ r) with
  | none => rfl
  | some node => rw [Option.map_some, Node.attachAt_ne hq]

/-! ## Files -/

section

variable {ino : Nat} {data : Bytes} (h : s.WellFormed)
  (hfile : s.find? (p ++ [n]) = some (.file ino data))
  (hapart : Location.Apart (p ++ [n]) (q ++ [m]))

include h hfile hapart

/-- A file that was written at another place and then removed has been merged with what was there. -/
theorem merged_file (ht : t.WellFormed) (hhere : t.view (q ++ [m]) = some (.file 0 data))
    (hpresent : ∀ found, s.view (q ++ [m]) = some found → found.isDir = false)
    (hbelow : ∀ c r, t.view (q ++ [m] ++ c :: r) = s.view (q ++ [m] ++ c :: r))
    (hother : ∀ k, ¬ q ++ [m] <+: k → t.view k = (s.view k).map (Node.attachAt k q m)) :
    s.Merged p n q m (t.remove p n) := by
  have hstill : t.names (p ++ [n]) = [] := by
    have hq : p ++ [n] ≠ q := fun heq => hapart.not_within_parent (heq ▸ List.prefix_refl _)
    have hview := hother (p ++ [n]) (hapart.not_within')
    rw [view_of_find? hfile, Option.map_some, Node.attachAt_ne hq] at hview
    obtain ⟨ino', hfind⟩ := find?_of_view_file hview
    exact names_of_find? hfind
  refine merged_remove (ht.remove hstill) hapart (fun r => ?_) fun k _ hk => hother k hk
  cases r with
  | nil =>
    rw [List.append_nil, List.append_nil, hhere, view_of_find? hfile]
    cases hview : s.view (q ++ [m]) with
    | none => rfl
    | some found =>
      have hfound := hpresent found hview
      cases found with
      | file ino' old => rfl
      | dir ino' names => cases hfound
  | cons c r =>
    have hnone := h.none_below_empty (names_of_find? hfile) (List.cons_ne_nil c r)
    rw [view_eq_none.mpr hnone, merged_none_left, hbelow]

theorem merged_file_new (hfree : s.find? (q ++ [m]) = none)
    (hadd : (s.add q m fun ino => .file ino data).WellFormed) :
    s.Merged p n q m ((s.add q m fun ino => .file ino data).remove p n) := by
  refine merged_file h hfile hapart hadd (by rw [view_add_self]; rfl) ?_ (fun c r => ?_)
    fun k hk => view_add_other hk
  · intro found hfound
    simp [view_eq_none.mpr hfree] at hfound
  · rw [h.view_add_below hfree, view_eq_none.mpr (h.none_below hfree _)]

theorem merged_file_over {ino' : Nat} {old : Bytes}
    (hpresent : s.find? (q ++ [m]) = some (.file ino' old)) :
    s.Merged p n q m ((s.put (q ++ [m]) (.file ino' data)).remove p n) := by
  have hput : ∀ k, k ≠ q ++ [m] → (s.put (q ++ [m]) (.file ino' data)).view k = s.view k := by
    intro k hk
    rw [view, find?_put, if_neg hk, view]
  refine merged_file h hfile hapart (h.put_file hpresent) (by simp [view, find?_put, Node.plain]) ?_
    (fun c r => ?_) fun k hk => ?_
  · intro found hfound
    rw [view_of_find? hpresent] at hfound
    cases hfound
    rfl
  · exact hput _ (Location.ne_append _ (List.cons_ne_nil c r)).symm
  · rw [hput k fun heq => hk (heq ▸ List.prefix_refl _), h.view_attach (by simp [hpresent])]

end

end Store

end FileProvider.Memory
