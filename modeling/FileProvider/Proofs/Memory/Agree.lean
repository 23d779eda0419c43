import FileProvider.Proofs.Memory.Relocation

/-!
# What an operation leaves alone

Removing and receiving an entry changes what lies within its place, and one name in the listing of its
parent. `Store.Agree` says that two stores agree outside a region, apart from the names that a veil
hides. Such statements are put together along a run, and from the parts of a tree to the whole.
-/

set_option autoImplicit false

namespace FileProvider.Memory

namespace Node

variable {here p q : Location} {n m : String} {node : Node}

/-- A name that is hidden anyway may be attached before. -/
theorem detachAt_attachAt_self :
    (node.attachAt here p n).detachAt here p n = node.detachAt here p n := by
  by_cases hp : here = p
  · rw [hp, attachAt_self, detachAt_self, detachAt_self]
    cases node with
    | file ino data => rfl
    | dir ino names =>
      change Node.dir ino ((if n ∈ names then names else names ++ [n]).filter (· ≠ n))
        = .dir ino (names.filter (· ≠ n))
      split
      · rfl
      · rw [List.filter_append, List.filter_singleton, decide_eq_false (not_not_intro rfl)]
        exact congrArg _ (List.append_nil _)
  · rw [attachAt_ne hp]

theorem detachAt_idem : (node.detachAt here p n).detachAt here p n = node.detachAt here p n := by
  by_cases hp : here = p
  · rw [hp, detachAt_self, detachAt_self]
    cases node with
    | file ino data => rfl
    | dir ino names =>
      exact congrArg (Node.dir ino) (List.filter_eq_self.mpr fun m hm => (List.mem_filter.mp hm).2)
  · rw [detachAt_ne hp, detachAt_ne hp]

theorem detachAt_comm :
    (node.detachAt here p n).detachAt here q m = (node.detachAt here q m).detachAt here p n := by
  by_cases hp : here = p
  · by_cases hq : here = q
    · subst hp hq
      rw [detachAt_self, detachAt_self, detachAt_self, detachAt_self]
      cases node with
      | file ino data => rfl
      | dir ino names => exact congrArg (Node.dir ino) (List.filter_comm ..)
    · rw [detachAt_ne hq, detachAt_ne hq]
  · rw [detachAt_ne hp, detachAt_ne hp]

/-- Hiding a name does not make a file of a directory. -/
theorem detachAt_eq_file {ino : Nat} {data : Bytes} :
    node.detachAt here p n = .file ino data ↔ node = .file ino data := by
  by_cases hp : here = p
  · rw [hp, detachAt_self]
    cases node with
    | file ino data => exact Iff.rfl
    | dir ino names => exact iff_of_false Node.noConfusion Node.noConfusion
  · rw [detachAt_ne hp]

end Node

namespace Store

variable {s t u : Store} {p q k : Location} {n m : String}

/-- Whether two stores agree outside a region, as far as can be seen through a veil. -/
def Agree (region : Location → Prop) (veil : Location → Node → Node) (s t : Store) : Prop :=
  ∀ k, ¬ region k → (t.find? k).map (veil k) = (s.find? k).map (veil k)

section

variable {region region' : Location → Prop} {veil veil' : Location → Node → Node}

theorem Agree.trans (h : Agree region veil s t) (h' : Agree region veil t u) :
    Agree region veil s u := fun k hk => (h' k hk).trans (h k hk)

/-- Stores agree outside a larger region too, and through a veil that hides more there. -/
theorem Agree.mono (h : Agree region veil s t) (hregion : ∀ k, region k → region' k)
    (hveil : ∀ k, ¬ region' k → ∃ f : Node → Node, ∀ node, veil' k node = f (veil k node)) :
    Agree region' veil' s t := by
  intro k hk
  obtain ⟨f, hf⟩ := hveil k hk
  have hmap : ∀ o : Option Node, o.map (veil' k) = (o.map (veil k)).map f := by
    intro o
    cases o with
    | none => rfl
    | some node => rw [Option.map_some, Option.map_some, Option.map_some, hf]
  rw [hmap, hmap, h k fun hr => hk (hregion k hr)]

/-- Where the veil hides nothing, the same is found. -/
theorem Agree.same (h : Agree region veil s t) (hk : ¬ region k) (hveil : ∀ node, veil k node = node) :
    t.find? k = s.find? k := by
  have hmap : ∀ o : Option Node, o.map (veil k) = o := by
    intro o
    cases o with
    | none => rfl
    | some node => rw [Option.map_some, hveil]
  rw [← hmap (t.find? k), ← hmap (s.find? k), h k hk]

end

/-! ## One place -/

/-- Whether two stores agree outside the place `p ++ [n]`, apart from that name in its parent. -/
def Outside (p : Location) (n : String) (s t : Store) : Prop :=
  Agree (p ++ [n] <+: ·) (fun k => Node.detachAt k p n) s t

/-- What lies elsewhere and is not the parent is the same. -/
theorem Outside.same (h : Outside p n s t) (hk : ¬ p ++ [n] <+: k) (hp : k ≠ p) :
    t.find? k = s.find? k := Agree.same h hk fun _ => Node.detachAt_ne hp

/-- What happens at the place of an entry happens within its parent. -/
theorem Outside.of_child {c : String} (h : Outside (p ++ [n]) c s t) : Outside p n s t := by
  refine Agree.mono h (fun k hk => (List.prefix_append _ [c]).trans hk) fun k hk =>
    ⟨Node.detachAt k p n, fun node => ?_⟩
  have hne : k ≠ p ++ [n] := fun heq => hk (heq ▸ List.prefix_refl _)
  rw [Node.detachAt_ne hne]

theorem outside_add (node : Nat → Node) : Outside p n s (s.add p n node) := by
  intro k hk
  have hne : k ≠ p ++ [n] := fun heq => hk (heq ▸ List.prefix_refl _)
  rw [find?_add, if_neg hne, Option.map_map]
  exact congrArg (Option.map · _) (funext fun _ => Node.detachAt_attachAt_self)

theorem outside_remove : Outside p n s (s.remove p n) := by
  intro k hk
  have hne : k ≠ p ++ [n] := fun heq => hk (heq ▸ List.prefix_refl _)
  rw [find?_remove, if_neg hne, Option.map_map]
  exact congrArg (Option.map · _) (funext fun _ => Node.detachAt_idem)

theorem outside_put (node : Node) : Outside p n s (s.put (p ++ [n]) node) := by
  intro k hk
  have hne : k ≠ p ++ [n] := fun heq => hk (heq ▸ List.prefix_refl _)
  rw [find?_put, if_neg hne]

/-! ## Two places -/

/-- Whether two stores agree outside the places `p ++ [n]` and `q ++ [m]`, apart from those names in
their parents. -/
def Aside (p : Location) (n : String) (q : Location) (m : String) (s t : Store) : Prop :=
  Agree (fun k => p ++ [n] <+: k ∨ q ++ [m] <+: k)
    (fun k node => (node.detachAt k p n).detachAt k q m) s t

theorem Outside.aside_left (h : Outside p n s t) (q : Location) (m : String) : Aside p n q m s t :=
  Agree.mono h (fun _ => .inl) fun _ _ => ⟨_, fun _ => rfl⟩

theorem Outside.aside_right (h : Outside q m s t) (p : Location) (n : String) : Aside p n q m s t :=
  Agree.mono h (fun _ => .inr) fun _ _ => ⟨_, fun _ => Node.detachAt_comm⟩

/-- What lies elsewhere and is neither parent is the same. -/
theorem Aside.same (h : Aside p n q m s t) (hsource : ¬ p ++ [n] <+: k) (htarget : ¬ q ++ [m] <+: k)
    (hp : k ≠ p) (hq : k ≠ q) : t.find? k = s.find? k :=
  Agree.same h (fun hk => hk.elim hsource htarget) fun _ => by
    rw [Node.detachAt_ne hp, Node.detachAt_ne hq]

/-- What happens at the places of two entries happens within their parents. -/
theorem Aside.of_child {c d : String} (h : Aside (p ++ [n]) c (q ++ [m]) d s t) :
    Aside p n q m s t := by
  refine Agree.mono h (fun k hk => ?_) fun k hk =>
    ⟨fun node => (node.detachAt k p n).detachAt k q m, fun node => ?_⟩
  · exact hk.imp (fun hp => (List.prefix_append _ [c]).trans hp)
      fun hq => (List.prefix_append _ [d]).trans hq
  · have hsource : k ≠ p ++ [n] := fun heq => hk (.inl (heq ▸ List.prefix_refl _))
    have htarget : k ≠ q ++ [m] := fun heq => hk (.inr (heq ▸ List.prefix_refl _))
    rw [Node.detachAt_ne hsource, Node.detachAt_ne htarget]

/-! ## Files -/

/-- Whether there is a file with some content at a location. -/
def HasFile (s : Store) (l : Location) (data : Bytes) : Prop :=
  ∃ ino, s.find? l = some (.file ino data)

theorem HasFile.congr {data : Bytes} {l : Location} (h : s.HasFile l data)
    (hfind : t.find? k = s.find? l) : t.HasFile k data := by
  obtain ⟨ino, hl⟩ := h
  exact ⟨ino, hfind.trans hl⟩

/-- Files outside the region stay, if the veil neither hides a file nor shows one. -/
theorem Agree.hasFile {region : Location → Prop} {veil : Location → Node → Node} {data : Bytes}
    (h : Agree region veil s t) (hk : ¬ region k)
    (hveil : ∀ node ino, veil k node = .file ino data ↔ node = .file ino data)
    (hfile : s.HasFile k data) : t.HasFile k data := by
  obtain ⟨ino, hfind⟩ := hfile
  have hagree := h k hk
  rw [hfind, Option.map_some, (hveil _ ino).mpr rfl] at hagree
  obtain ⟨node, hnode, hveiled⟩ := Option.map_eq_some_iff.mp hagree
  exact ⟨ino, (hveil node ino).mp hveiled ▸ hnode⟩

theorem Outside.hasFile {data : Bytes} (h : Outside p n s t) (hk : ¬ p ++ [n] <+: k)
    (hfile : s.HasFile k data) : t.HasFile k data :=
  Agree.hasFile h hk (fun _ _ => Node.detachAt_eq_file) hfile

theorem Aside.hasFile {data : Bytes} (h : Aside p n q m s t) (hsource : ¬ p ++ [n] <+: k)
    (htarget : ¬ q ++ [m] <+: k) (hfile : s.HasFile k data) : t.HasFile k data :=
  Agree.hasFile h (fun hk => hk.elim hsource htarget)
    (fun _ _ => Node.detachAt_eq_file.trans Node.detachAt_eq_file) hfile

end Store

end FileProvider.Memory
