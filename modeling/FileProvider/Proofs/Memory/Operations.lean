import FileProvider.Memory.Backend
import FileProvider.Proofs.Memory.Lookup
import FileProvider.Proofs.Run

/-!
# What the operations on a store do

One equation for each operation says how it ends on every store, the checks in the order in which they
are made. An operation that fails leaves the store as it was, and one that succeeds makes one of the
changes that `Lookup` describes.
-/

set_option autoImplicit false

namespace FileProvider.Memory

namespace Store

/-- Whether a location is a directory. -/
def IsDir (s : Store) (l : Location) : Prop := ∃ ino names, s.find? l = some (.dir ino names)

/-- Whether an entry can come to a location: its name is text, and it lies in a directory. -/
def Admits (s : Store) (l : Location) : Prop :=
  ∃ p n, l = p ++ [n] ∧ Name.isText n = true ∧ s.IsDir p

end Store

variable {p q : Location} {n m : String} {s : Store}

theorem admits_child : s.Admits (p ++ [n]) ↔ Name.isText n = true ∧ s.IsDir p := by
  constructor
  · rintro ⟨p', n', hplace, hn, hp⟩
    obtain ⟨rfl, rfl⟩ := Location.child_inj.mp hplace
    exact ⟨hn, hp⟩
  · rintro ⟨hn, hp⟩
    exact ⟨p, n, rfl, hn, hp⟩

theorem look_apply (l : Location) (s : Store) : look l s = .ok (s.find? l) s := rfl

theorem parentOf_child (hn : Name.isText n = true) : parentOf (p ++ [n]) = pure (p, n) := by
  rw [parentOf, Location.split?_append]
  exact if_pos hn

/-- A name that is no text is refused. -/
theorem parentOf_foreign (hn : Name.isText n = false) :
    parentOf (p ++ [n]) = throw (.invalidPath ("invalid name: " ++ Location.text (p ++ [n]))) := by
  rw [parentOf, Location.split?_append]
  exact if_neg (ne_true_of_eq_false hn)

/-- Asking for the parent fails without a change or finds a name that is text. -/
theorem parentOf_cases (l : Location) :
    (∃ e, parentOf l = throw e) ∨ ∃ p n, l = p ++ [n] ∧ Name.isText n = true ∧ parentOf l = pure (p, n) := by
  rcases Location.eq_nil_or_append l with rfl | ⟨p, n, rfl⟩
  · exact .inl ⟨_, rfl⟩
  · cases hn : Name.isText n with
    | false => exact .inl ⟨_, parentOf_foreign hn⟩
    | true => exact .inr ⟨p, n, rfl, hn, parentOf_child hn⟩

theorem namesOf_apply (l : Location) (s : Store) :
    namesOf l s = match s.find? l with
      | some (.dir _ names) => .ok names s
      | some (.file _ _) => .error (.notADirectory l.text) s
      | none => .error (.notFound l.text) s := by
  rw [namesOf, bind_apply, look_apply]
  cases s.find? l with
  | none => rfl
  | some node => cases node <;> rfl

theorem requireDir_apply (l : Location) (s : Store) :
    requireDir l s = match s.find? l with
      | some (.dir _ _) => .ok () s
      | some (.file _ _) => .error (.notADirectory l.text) s
      | none => .error (.notFound l.text) s := by
  rw [requireDir, bind_apply, namesOf_apply]
  cases s.find? l with
  | none => rfl
  | some node => cases node <;> rfl

/-- Requiring a directory changes nothing. -/
theorem requireDir_cases (l : Location) (s : Store) :
    (∃ e, requireDir l s = .error e s) ∨ (requireDir l s = .ok () s ∧ s.IsDir l) := by
  rw [requireDir_apply]
  cases hl : s.find? l with
  | none => exact .inl ⟨_, rfl⟩
  | some node =>
    cases node with
    | file ino data => exact .inl ⟨_, rfl⟩
    | dir ino names => exact .inr ⟨rfl, ino, names, hl⟩

theorem holderOf_child (hn : Name.isText n = true) (hp : s.IsDir p) : holderOf (p ++ [n]) s = .ok (p, n) s := by
  obtain ⟨ino, names, hdir⟩ := hp
  rw [holderOf, parentOf_child hn, pure_bind]
  dsimp only
  rw [bind_apply, requireDir_apply, hdir]
  rfl

theorem holderOf_foreign (hn : Name.isText n = false) (s : Store) :
    holderOf (p ++ [n]) s = .error (.invalidPath ("invalid name: " ++ Location.text (p ++ [n]))) s := by
  rw [holderOf, parentOf_foreign hn]
  rfl

/-- Asking where an entry comes to fails without a change, or the entry can come there. -/
theorem holderOf_cases (l : Location) (s : Store) :
    (∃ e, holderOf l s = .error e s ∧ ¬ s.Admits l) ∨
    ∃ p n, l = p ++ [n] ∧ Name.isText n = true ∧ s.IsDir p ∧ holderOf l s = .ok (p, n) s := by
  by_cases hadmits : s.Admits l
  · obtain ⟨p, n, rfl, hn, hp⟩ := hadmits
    exact .inr ⟨p, n, rfl, hn, hp, holderOf_child hn hp⟩
  · refine .inl ?_
    rcases parentOf_cases l with ⟨e, he⟩ | ⟨p, n, rfl, hn, hparent⟩
    · exact ⟨e, by rw [holderOf, he]; rfl, hadmits⟩
    · rcases requireDir_cases p s with ⟨e, he⟩ | ⟨_, hp⟩
      · refine ⟨e, ?_, hadmits⟩
        rw [holderOf, hparent, pure_bind]
        dsimp only
        rw [bind_apply, he]
      · exact absurd ⟨p, n, rfl, hn, hp⟩ hadmits

theorem read_apply (l : Location) (s : Store) :
    read l s = match s.find? l with
      | some (.file _ data) => .ok data s
      | some (.dir _ _) => .error (.isADirectory l.text) s
      | none => .error (.notFound l.text) s := by
  rw [read, bind_apply, look_apply]
  cases s.find? l with
  | none => rfl
  | some node => cases node <;> rfl

theorem stat_apply (l : Location) (s : Store) :
    stat l s = match s.find? l with
      | some node => .ok node.stat s
      | none => .error (.notFound l.text) s := by
  rw [stat, bind_apply, look_apply]
  cases s.find? l <;> rfl

theorem list_apply (l : Location) (s : Store) :
    list l s = match s.find? l with
      | some (.dir _ names) =>
        .ok (names.filterMap fun n => (s.find? (l ++ [n])).map fun node => ⟨n, node.kind⟩) s
      | some (.file _ _) => .error (.notADirectory l.text) s
      | none => .error (.notFound l.text) s := by
  rw [list, bind_apply, namesOf_apply]
  cases s.find? l with
  | none => rfl
  | some node => cases node <;> rfl

theorem write_eq (l : Location) (data : Bytes) (s : Store) :
    write l data s = match holderOf l s with
      | .ok (p, n) t =>
        match t.find? l with
        | some (.dir _ _) => .error (.isADirectory l.text) t
        | some (.file ino _) => .ok () (t.put l (.file ino data))
        | none => .ok () (t.add p n fun ino => .file ino data)
      | .error e t => .error e t := by
  rw [write, bind_apply]
  cases holderOf l s with
  | error e t => rfl
  | ok place t =>
    dsimp only
    rw [bind_apply, look_apply]
    cases t.find? l with
    | none => rfl
    | some node => cases node <;> rfl

/-- Replacing the content of a file needs the directory that holds it. -/
theorem write_file {l : Location} {ino : Nat} {old : Bytes} (hl : s.Admits l)
    (hfile : s.find? l = some (.file ino old)) (data : Bytes) :
    write l data s = .ok () (s.put l (.file ino data)) := by
  obtain ⟨p, n, rfl, hn, hp⟩ := hl
  rw [write_eq, holderOf_child hn hp]
  dsimp only
  rw [hfile]

theorem write_free (hn : Name.isText n = true) (hp : s.IsDir p) (hfree : s.find? (p ++ [n]) = none)
    (data : Bytes) :
    write (p ++ [n]) data s = .ok () (s.add p n fun ino => .file ino data) := by
  rw [write_eq, holderOf_child hn hp]
  dsimp only
  rw [hfree]

theorem delete_apply (l : Location) (s : Store) :
    delete l s = match s.find? l with
      | some (.dir _ _) => .error (.isADirectory l.text) s
      | some (.file _ _) => (parentOf l >>= fun place => modify (·.remove place.1 place.2)) s
      | none => .error (.notFound l.text) s := by
  rw [delete, bind_apply, look_apply]
  cases s.find? l with
  | none => rfl
  | some node => cases node <;> rfl

/-- Deleting fails without a change or takes a file away. -/
theorem delete_cases (l : Location) (s : Store) :
    (∃ e, delete l s = .error e s) ∨
    ∃ p n ino data, l = p ++ [n] ∧ s.find? l = some (.file ino data) ∧
      delete l s = .ok () (s.remove p n) := by
  rw [delete_apply]
  cases hl : s.find? l with
  | none => exact .inl ⟨_, rfl⟩
  | some node =>
    cases node with
    | dir ino names => exact .inl ⟨_, rfl⟩
    | file ino data =>
      rcases parentOf_cases l with ⟨e, he⟩ | ⟨p, n, rfl, -, hparent⟩
      · exact .inl ⟨e, by rw [he]; rfl⟩
      · exact .inr ⟨p, n, ino, data, rfl, rfl, by rw [hparent]; rfl⟩

theorem createDir_free {l : Location} (h : s.find? l = none) :
    createDir l s = (holderOf l >>= fun place => modify (·.add place.1 place.2 fun ino => .dir ino [])) s := by
  rw [createDir, bind_apply, look_apply, h]
  rfl

/-- Where there is something already, no directory is created. -/
theorem createDir_taken {l : Location} (h : (s.find? l).isSome = true) :
    createDir l s = .error (.alreadyExists l.text) s := by
  obtain ⟨node, hnode⟩ := Option.isSome_iff_exists.mp h
  rw [createDir, bind_apply, look_apply, hnode]
  rfl

/-- Creating a directory fails without a change or adds one at a free place. -/
theorem createDir_cases (l : Location) (s : Store) :
    (∃ e, createDir l s = .error e s) ∨
    ∃ p n, l = p ++ [n] ∧ Name.isText n = true ∧ s.IsDir p ∧ s.find? l = none ∧
      createDir l s = .ok () (s.add p n fun ino => .dir ino []) := by
  cases hl : s.find? l with
  | some node => exact .inl ⟨_, createDir_taken (Option.isSome_iff_exists.mpr ⟨node, hl⟩)⟩
  | none =>
    rw [createDir_free hl, bind_apply]
    rcases holderOf_cases l s with ⟨e, he, -⟩ | ⟨p, n, rfl, hn, hp, hholder⟩
    · exact .inl ⟨e, by rw [he]⟩
    · exact .inr ⟨p, n, rfl, hn, hp, rfl, by rw [hholder]; rfl⟩

theorem removeDir_apply (l : Location) (s : Store) :
    removeDir l s = match s.find? l with
      | some (.dir _ names) =>
        if names.isEmpty then (parentOf l >>= fun place => modify (·.remove place.1 place.2)) s
        else .error (.directoryNotEmpty l.text) s
      | some (.file _ _) => .error (.notADirectory l.text) s
      | none => .error (.notFound l.text) s := by
  rw [removeDir, bind_apply, namesOf_apply]
  cases s.find? l with
  | none => rfl
  | some node =>
    cases node with
    | file ino data => rfl
    | dir ino names =>
      dsimp only
      cases names.isEmpty <;> rfl

/-- Removing a directory fails without a change or takes one away that lists nothing. -/
theorem removeDir_cases (l : Location) (s : Store) :
    (∃ e, removeDir l s = .error e s) ∨
    ∃ p n ino, l = p ++ [n] ∧ s.find? l = some (.dir ino []) ∧
      removeDir l s = .ok () (s.remove p n) := by
  rw [removeDir_apply]
  cases hl : s.find? l with
  | none => exact .inl ⟨_, rfl⟩
  | some node =>
    cases node with
    | file ino data => exact .inl ⟨_, rfl⟩
    | dir ino names =>
      cases names with
      | cons n names => exact .inl ⟨_, rfl⟩
      | nil =>
        rcases parentOf_cases l with ⟨e, he⟩ | ⟨p, n, rfl, -, hparent⟩
        · exact .inl ⟨e, by rw [he]; rfl⟩
        · exact .inr ⟨p, n, ino, rfl, rfl, by rw [hparent]; rfl⟩

theorem makeRoom_apply (node : Node) (l : Location) (s : Store) :
    makeRoom node l s = match s.find? l with
      | none => .ok () s
      | some (.dir _ names) =>
        if !node.isDir then .error (.isADirectory l.text) s
        else if !names.isEmpty then .error (.directoryNotEmpty l.text) s
        else .ok () (s.erase l)
      | some (.file _ _) =>
        if node.isDir then .error (.notADirectory l.text) s else .ok () (s.erase l) := by
  rw [makeRoom, bind_apply, look_apply]
  cases s.find? l with
  | none => rfl
  | some found =>
    cases found with
    | file ino data => cases node.isDir <;> rfl
    | dir ino names =>
      dsimp only
      cases node.isDir with
      | false => rfl
      | true => cases names.isEmpty <;> rfl

/-- The store in which everything within `source` has its place within `target` instead; no listing
is changed. -/
def Store.carried (s : Store) (source target : Location) : Store :=
  let cleared := s.erase target
  cleared.moveNodes source target (cleared.within source)

/-- The store in which what was at `p ++ [n]` has the place `q ++ [m]`, where it comes last unless
that name was listed already. -/
def Store.relocated (s : Store) (p : Location) (n : String) (q : Location) (m : String) : Store :=
  ((s.carried (p ++ [n]) (q ++ [m])).detach p n).attach q m

/-- The same store as `relocated`, but for the order in which the nodes were moved. -/
def Store.relocatedAlong (arrange : List Location → List Location) (s : Store) (p : Location) (n : String)
    (q : Location) (m : String) : Store :=
  let cleared := s.erase (q ++ [m])
  ((cleared.moveNodes (p ++ [n]) (q ++ [m]) (arrange (cleared.within (p ++ [n])))).detach p n).attach q m

/-- Nothing changes when a location is erased at which there is nothing. -/
theorem Store.erase_of_none {l : Location} (h : s.find? l = none) : s.erase l = s := by
  rw [erase, Catalogue.erase_of_none h]

/-- Making room either fails without a change or leaves nothing at the location. -/
theorem makeRoom_cases (node : Node) (l : Location) (s : Store) :
    (∃ e, makeRoom node l s = .error e s) ∨
    (makeRoom node l s = .ok () (s.erase l) ∧
      ∀ found, s.find? l = some found → found.isDir = node.isDir ∧ found.names = []) := by
  rw [makeRoom_apply]
  cases hl : s.find? l with
  | none =>
    refine .inr ⟨?_, fun found hfound => nomatch hfound⟩
    rw [Store.erase_of_none hl]
  | some found =>
    cases found with
    | file ino data =>
      dsimp only
      split
      · exact .inl ⟨_, rfl⟩
      · next hnode =>
        refine .inr ⟨rfl, fun other hother => ?_⟩
        obtain rfl := Option.some.inj hother
        exact ⟨(Bool.not_eq_true _ ▸ hnode : node.isDir = false).symm, rfl⟩
    | dir ino names =>
      dsimp only
      split
      · exact .inl ⟨_, rfl⟩
      · next hnode =>
        split
        · exact .inl ⟨_, rfl⟩
        · next hnames =>
          refine .inr ⟨rfl, fun other hother => ?_⟩
          obtain rfl := Option.some.inj hother
          simp only [Bool.not_eq_true', Bool.not_eq_false] at hnode hnames
          exact ⟨hnode.symm, List.isEmpty_iff.mp hnames⟩

/-! ## Renaming, in any order -/

section

variable (arrange : List Location → List Location)

theorem renameAlong_none {source : Location} (target : Location) (h : s.find? source = none) :
    renameAlong arrange source target s = .error (.notFound source.text) s := by
  rw [renameAlong, bind_apply, look_apply, h]
  rfl

theorem renameAlong_self {source : Location} {node : Node} (h : s.find? source = some node) :
    renameAlong arrange source source s = .ok () s := by
  rw [renameAlong, bind_apply, look_apply, h]
  dsimp only
  rw [if_pos rfl]
  rfl

theorem renameAlong_below {source target : Location} {node : Node} (h : s.find? source = some node)
    (hne : source ≠ target) (hbelow : source <+: target) :
    renameAlong arrange source target s
      = .error (.invalidArgument ("cannot move " ++ source.text ++ " into itself")) s := by
  rw [renameAlong, bind_apply, look_apply, h]
  dsimp only
  rw [if_neg hne, if_pos (Location.isWithin_iff.mpr hbelow)]
  rfl

theorem renameAlong_free {source target : Location} {node : Node} (h : s.find? source = some node)
    (hbelow : ¬ source <+: target) :
    renameAlong arrange source target s = (do
      let (oldParent, oldName) ← parentOf source
      let (newParent, newName) ← holderOf target
      makeRoom node target
      modify fun t => t.moveNodes source target (arrange (t.within source))
      modify (·.detach oldParent oldName)
      modify (·.attach newParent newName) : Op Unit) s := by
  have hne : source ≠ target := fun heq => hbelow (heq ▸ List.prefix_refl _)
  rw [renameAlong, bind_apply, look_apply, h]
  dsimp only
  rw [if_neg hne, if_neg (fun hw => hbelow (Location.isWithin_iff.mp hw))]

theorem renameAlong_child {target : Location} {node : Node} (h : s.find? (p ++ [n]) = some node)
    (hn : Name.isText n = true) (hbelow : ¬ p ++ [n] <+: target) :
    renameAlong arrange (p ++ [n]) target s = match holderOf target s with
      | .ok (q, m) t =>
        match makeRoom node target t with
        | .ok _ u =>
          .ok () (((u.moveNodes (p ++ [n]) target (arrange (u.within (p ++ [n])))).detach p n).attach q m)
        | .error e u => .error e u
      | .error e t => .error e t := by
  rw [renameAlong_free arrange h hbelow, parentOf_child hn, pure_bind]
  dsimp only
  rw [bind_apply]
  cases holderOf target s with
  | error e t => rfl
  | ok place t =>
    dsimp only
    rw [bind_apply]
    cases makeRoom node target t <;> rfl

/-- Renaming fails without a change, does nothing because both locations are the same, or takes the
entry to a place that was free or could be freed. -/
theorem renameAlong_cases (source target : Location) (s : Store) :
    (∃ e, renameAlong arrange source target s = .error e s) ∨
    (source = target ∧ (s.find? source).isSome = true ∧ renameAlong arrange source target s = .ok () s) ∨
    (∃ p n q m node, source = p ++ [n] ∧ target = q ++ [m] ∧ s.find? source = some node ∧
      ¬ source <+: target ∧ Name.isText m = true ∧ s.IsDir q ∧
      (∀ found, s.find? target = some found → found.isDir = node.isDir ∧ found.names = []) ∧
      renameAlong arrange source target s = .ok () (s.relocatedAlong arrange p n q m)) := by
  cases hsource : s.find? source with
  | none => exact .inl ⟨_, renameAlong_none arrange target hsource⟩
  | some node =>
    by_cases heq : source = target
    · exact .inr (.inl ⟨heq, rfl, heq ▸ renameAlong_self arrange hsource⟩)
    · by_cases hbelow : source <+: target
      · exact .inl ⟨_, renameAlong_below arrange hsource heq hbelow⟩
      · rcases parentOf_cases source with ⟨e, he⟩ | ⟨p, n, rfl, hn, -⟩
        · exact .inl ⟨e, by rw [renameAlong_free arrange hsource hbelow, he]; rfl⟩
        · rw [renameAlong_child arrange hsource hn hbelow]
          rcases holderOf_cases target s with ⟨e, he, -⟩ | ⟨q, m, rfl, hm, hq, hholder⟩
          · exact .inl ⟨e, by rw [he]⟩
          · rw [hholder]
            dsimp only
            rcases makeRoom_cases node (q ++ [m]) s with ⟨e, he⟩ | ⟨hok, hroom⟩
            · exact .inl ⟨e, by rw [he]⟩
            · refine .inr (.inr ⟨p, n, q, m, node, rfl, rfl, rfl, hbelow, hm, hq, hroom, ?_⟩)
              rw [hok]
              rfl

end

/-! ## Renaming -/

theorem rename_none {source : Location} (target : Location) (h : s.find? source = none) :
    rename source target s = .error (.notFound source.text) s := renameAlong_none id target h

theorem rename_below {source target : Location} {node : Node} (h : s.find? source = some node)
    (hne : source ≠ target) (hbelow : source <+: target) :
    rename source target s
      = .error (.invalidArgument ("cannot move " ++ source.text ++ " into itself")) s :=
  renameAlong_below id h hne hbelow

theorem rename_child {target : Location} {node : Node} (h : s.find? (p ++ [n]) = some node)
    (hn : Name.isText n = true) (hbelow : ¬ p ++ [n] <+: target) :
    rename (p ++ [n]) target s = match holderOf target s with
      | .ok (q, m) t =>
        match makeRoom node target t with
        | .ok _ u => .ok () (((u.moveNodes (p ++ [n]) target (u.within (p ++ [n]))).detach p n).attach q m)
        | .error e u => .error e u
      | .error e t => .error e t :=
  renameAlong_child id h hn hbelow

theorem rename_cases (source target : Location) (s : Store) :
    (∃ e, rename source target s = .error e s) ∨
    (source = target ∧ (s.find? source).isSome = true ∧ rename source target s = .ok () s) ∨
    (∃ p n q m node, source = p ++ [n] ∧ target = q ++ [m] ∧ s.find? source = some node ∧
      ¬ source <+: target ∧ Name.isText m = true ∧ s.IsDir q ∧
      (∀ found, s.find? target = some found → found.isDir = node.isDir ∧ found.names = []) ∧
      rename source target s = .ok () (s.relocated p n q m)) :=
  renameAlong_cases id source target s

end FileProvider.Memory
