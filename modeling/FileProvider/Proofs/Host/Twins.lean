import FileProvider.Proofs.Host.Changing
import FileProvider.Proofs.Memory.Operations
import FileProvider.Proofs.Memory.WellFormed

/-!
# One tree in memory and on the host

A store in memory and a directory of the host hold the same tree if the same is seen at every location: a
directory, or a file with its content. No file has two names then, because none has in memory. They go on
holding the same tree if a file is emptied, or an empty one is created, at the same location of both.
-/

set_option autoImplicit false

namespace FileProvider

open Memory (Store Node)

/-- What is seen of a node in memory. -/
def Memory.Node.seen : Node → Host.Seen
  | .file _ data => .file data
  | .dir _ _ => .dir

theorem Memory.Node.seen_attachAt (here p : Location) (name : String) (node : Node) :
    (node.attachAt here p name).seen = node.seen := by
  unfold attachAt
  split
  · cases node <;> rfl
  · rfl

namespace Host

variable {h : Host} {p : Location}

theorem seen_eq_dir : h.seen p = some .dir ↔ h.find? p = some .dir := by
  unfold seen
  cases h.find? p with
  | none => simp
  | some node => cases node <;> simp

theorem seen_eq_none : h.seen p = none ↔ h.find? p = none := Option.map_eq_none_iff

theorem seen_eq_file {data : Bytes} :
    h.seen p = some (.file data) ↔ ∃ id, h.find? p = some (.file id) ∧ h.content id = data := by
  unfold seen
  cases h.find? p with
  | none => simp
  | some node => cases node <;> simp

/-- A content that was emptied is empty. -/
theorem content_withContent_nil (h : Host) (id : Nat) : (h.withContent id []).content id = [] := by
  unfold content withContent
  dsimp only
  induction h.contents with
  | nil => rfl
  | cons e contents ih =>
    rw [List.map_cons]
    by_cases he : e.1 = id
    · rw [if_pos he, List.lookup_cons, beq_self_eq_true]
      rfl
    · rw [if_neg he, List.lookup_cons, beq_eq_false_iff_ne.mpr (Ne.symm he)]
      exact ih

/-- A new file is empty. -/
theorem content_withFile_new (h : Host) (p : Location) : (h.withFile p).content h.nextId = [] := by
  unfold content withFile
  rw [List.lookup_cons, beq_self_eq_true]
  rfl

end Host

/-- Whether a store in memory and a directory of the host hold the same tree. -/
structure Twins (s : Store) (h : Host) (base : Location) : Prop where
  store : s.WellFormed
  host : h.WellFormed
  same : ∀ l, h.seen (base ++ l) = (s.find? l).map Node.seen
  single : ∀ {l k id}, h.find? (base ++ l) = some (.file id) → h.find? (base ++ k) = some (.file id) → l = k

namespace Twins

variable {s : Store} {h : Host} {base l p : Location} {n : String} {ino : Nat} {data : Bytes}

theorem find?_dir (ht : Twins s h base) (hdir : s.IsDir l) : h.find? (base ++ l) = some .dir := by
  obtain ⟨ino, names, hfind⟩ := hdir
  rw [← Host.seen_eq_dir, ht.same, hfind]
  rfl

theorem find?_file (ht : Twins s h base) (hfile : s.find? l = some (.file ino data)) :
    ∃ id, h.find? (base ++ l) = some (.file id) := by
  obtain ⟨id, hid, -⟩ := Host.seen_eq_file.mp (by rw [ht.same, hfile]; rfl)
  exact ⟨id, hid⟩

theorem find?_none (ht : Twins s h base) (hnone : s.find? l = none) : h.find? (base ++ l) = none := by
  rw [← Host.seen_eq_none, ht.same, hnone]
  rfl

/-- Emptying a file keeps the same tree. -/
theorem emptied (ht : Twins s h base) {id : Nat} (hfile : s.find? l = some (.file ino data))
    (hid : h.find? (base ++ l) = some (.file id)) :
    Twins (s.put l (.file ino [])) (h.withContent id []) base where
  store := ht.store.put_file hfile
  host := (Host.framed_withContent ht.host hid []).wellFormed
  same k := by
    rw [Store.find?_put]
    by_cases hk : k = l
    · subst hk
      rw [if_pos rfl]
      exact Host.seen_eq_file.mpr ⟨id, hid, Host.content_withContent_nil h id⟩
    · rw [if_neg hk, ← ht.same]
      refine Host.seen_congr rfl fun other hother => Host.content_withContent_ne ?_ []
      rintro rfl
      exact hk (ht.single hother hid)
  single := ht.single

/-- Creating an empty file keeps the same tree. -/
theorem created (ht : Twins s h base) (hp : s.IsDir p) (hnone : s.find? (p ++ [n]) = none) (hn : IsName n)
    (hshort : Name.size n ≤ Host.nameLimit) :
    Twins (s.add p n fun ino => .file ino []) (h.withFile (base ++ (p ++ [n]))) base where
  store := ht.store.add hp hn hnone rfl rfl
  host := by
    have hfree : h.Free (base ++ p) n :=
      ⟨ht.find?_dir hp, hn.isChildStep, hshort, by rw [List.append_assoc]; exact ht.find?_none hnone⟩
    rw [← List.append_assoc]
    have hframed : Host.Framed _ (fun _ => False) h _ := Host.framed_withFile ht.host hfree
    exact hframed.wellFormed
  same k := by
    rw [Store.find?_add]
    by_cases hk : k = p ++ [n]
    · subst hk
      rw [if_pos rfl]
      refine Host.seen_eq_file.mpr ⟨h.nextId, ?_, Host.content_withFile_new h _⟩
      rw [Host.find?_withFile, if_pos rfl]
    · have hne : base ++ k ≠ base ++ (p ++ [n]) := fun heq => hk (List.append_cancel_left heq)
      have hseen : (Node.seen ∘ Node.attachAt k p n) = Node.seen :=
        funext fun node => node.seen_attachAt k p n
      rw [if_neg hk, Option.map_map, hseen, ← ht.same]
      refine Host.seen_congr ?_ fun id hid => Host.content_withFile h _ (Nat.ne_of_lt (ht.host.fresh hid))
      rw [Host.find?_withFile, if_neg hne]
  single := by
    -- The number of the new file is that of no other.
    intro l k id hl hk
    rw [Host.find?_withFile] at hl hk
    split at hl <;> split at hk
    · next heq heq' => exact List.append_cancel_left (heq.trans heq'.symm)
    · cases hl
      exact absurd (ht.host.fresh hk) (Nat.lt_irrefl _)
    · cases hk
      exact absurd (ht.host.fresh hl) (Nat.lt_irrefl _)
    · exact ht.single hl hk

end Twins

end FileProvider
