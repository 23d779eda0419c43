import Mathlib.Data.List.Induction
import FileProvider.Proofs.Catalogue
import FileProvider.Proofs.Host.Walk

/-!
# Well-formed hosts

The catalogue of a host is a tree if whatever it holds lies in a directory, under a name that leads to a
child and is no longer than a directory allows. What calls change is at places of one region; what they
write are files with a name in a part of it. `Framed` says so by what is found afterwards. Such changes come
one after the other, so that everything that is done in a region is one change of it.
-/

set_option autoImplicit false

namespace FileProvider.Host

/-- Whether a host holds a tree, with new numbers left for the contents of new files. -/
structure WellFormed (h : Host) : Prop where
  root : h.find? [] = some .dir
  parent : ∀ {p n node}, h.find? (p ++ [n]) = some node → h.find? p = some .dir
  childStep : ∀ {p n node}, h.find? (p ++ [n]) = some node → IsChildStep n
  short : ∀ {p n node}, h.find? (p ++ [n]) = some node → Name.size n ≤ nameLimit
  fresh : ∀ {p id}, h.find? p = some (.file id) → id < h.nextId

variable {h k m : Host} {ending : Ending} {p q l : Location} {n : String}
  {region region' written written' : Location → Prop}

namespace WellFormed

/-- Above anything there is a directory. -/
theorem dir_above (hwf : h.WellFormed) {r : Location} (hr : r ≠ []) {node : HostNode}
    (hnode : h.find? (p ++ r) = some node) : h.find? p = some .dir := by
  induction r using List.reverseRecOn generalizing node with
  | nil => exact absurd rfl hr
  | append_singleton r n ih =>
    rw [← List.append_assoc] at hnode
    have hdir := hwf.parent hnode
    by_cases hnil : r = []
    · rwa [hnil, List.append_nil] at hdir
    · exact ih hnil hdir

theorem descends (hwf : h.WellFormed) {node : HostNode} (hnode : h.find? p = some node) : p.Descends := by
  induction p using List.reverseRecOn generalizing node with
  | nil => exact Location.descends_nil
  | append_singleton p n ih => exact Location.descends_child.mpr ⟨ih (hwf.parent hnode), hwf.childStep hnode⟩

/-- Below what is no directory there is nothing. -/
theorem leaf (hwf : h.WellFormed) (hp : h.find? p ≠ some .dir) {r : Location} (hr : r ≠ []) :
    h.find? (p ++ r) = none := by
  cases hnode : h.find? (p ++ r) with
  | none => rfl
  | some node => exact absurd (hwf.dir_above hr hnode) hp

/-- Where there is no child there is nothing below. -/
theorem none_below (hwf : h.WellFormed) (hp : ∀ n, h.find? (p ++ [n]) = none) {r : Location} (hr : r ≠ []) :
    h.find? (p ++ r) = none := by
  obtain ⟨n, r, rfl⟩ := List.exists_cons_of_ne_nil hr
  rw [List.append_cons]
  by_cases hrest : r = []
  · rw [hrest, List.append_nil]
    exact hp n
  · exact hwf.leaf (by rw [hp n]; exact nofun) hrest

end WellFormed

/-! ## Walks in a tree -/

/-- Whether something may come into a directory under a name. -/
structure Free (h : Host) (d : Location) (n : String) : Prop where
  dir : h.find? d = some .dir
  childStep : IsChildStep n
  short : Name.size n ≤ nameLimit
  free : h.find? (d ++ [n]) = none

/-- In a tree a walk comes to nothing only where something may come into a directory. -/
theorem Walks.exists_free (hwf : h.WellFormed) {here : Location} {steps : List String} {p : Location}
    (hw : Walks h ending here steps (.ok (p, none))) (hhere : (h.find? here).isSome = true) :
    ∃ d n, p = d ++ [n] ∧ h.Free d n := by
  generalize hr : Except.ok (p, none) = r at hw
  induction hw with
  | done here =>
    obtain ⟨rfl, hnone⟩ := Prod.mk.inj (Except.ok.inj hr)
    rw [← hnone] at hhere
    cases hhere
  | stay _ _ _ ih => exact ih hhere hr
  | @up here _ _ hdir _ ih =>
    refine ih ?_ hr
    rcases here.eq_nil_or_append with rfl | ⟨d, n, rfl⟩
    · exact hhere
    · rw [List.dropLast_concat, hwf.parent hdir]
      rfl
  | @missing here step hdir hstep hshort hnone =>
    cases hr
    exact ⟨here, step, rfl, hdir, hstep, hshort, hnone⟩
  | @follow here step target rest r hdir _ _ _ ih =>
    refine ih ?_ hr
    rw [linkSteps]
    dsimp only
    split
    · rw [hwf.root]
      rfl
    · exact hhere
  | child _ _ _ hnode _ _ ih =>
    refine ih ?_ hr
    rw [hnode]
    rfl
  | _ => cases hr

/-! ## What is seen -/

/-- What is at a place, as one sees it. -/
inductive Seen where
  | file (data : Bytes)
  | dir
  | link (target : Path)
deriving DecidableEq, Repr

/-- What is seen at a place. -/
def seen (h : Host) (p : Location) : Option Seen :=
  (h.find? p).map fun
    | .file id => .file (h.content id)
    | .dir => .dir
    | .link target => .link target

/-- What is seen depends on what is found and, at a file, on its content. -/
theorem seen_congr (hfind : k.find? q = h.find? q)
    (hcontent : ∀ id, h.find? q = some (.file id) → k.content id = h.content id) : k.seen q = h.seen q := by
  unfold seen
  rw [hfind]
  cases hq : h.find? q with
  | none => rfl
  | some node =>
    cases node with
    | file id => exact congrArg (some ∘ Seen.file) (hcontent id hq)
    | dir => rfl
    | link target => rfl

/-! ## Changes in a region -/

/-- Whether a tree comes from another host by changes in a region that bring no link, give no file a
further name, and write no file but those that have a name in a part of the region. -/
structure Framed (region written : Location → Prop) (h k : Host) : Prop where
  wellFormed : k.WellFormed
  find?_eq : ∀ q, ¬ region q → k.find? q = h.find? q
  link : ∀ q target, k.find? q = some (.link target) → h.find? q = some (.link target)
  file : ∀ q id, k.find? q = some (.file id) → h.find? q = some (.file id) ∨ h.nextId ≤ id
  content_eq : ∀ id < h.nextId, (∀ q, written q → h.find? q ≠ some (.file id)) → k.content id = h.content id
  nextId_le : h.nextId ≤ k.nextId

namespace Framed

theorem refl (hwf : h.WellFormed) : Framed region written h h :=
  ⟨hwf, fun _ _ => rfl, fun _ _ => id, fun _ _ => .inl, fun _ _ _ => rfl, Nat.le_refl _⟩

theorem mono (hf : Framed region written h k) (hregion : ∀ q, region q → region' q)
    (hwritten : ∀ q, written q → written' q) : Framed region' written' h k where
  wellFormed := hf.wellFormed
  find?_eq q hq := hf.find?_eq q fun hin => hq (hregion q hin)
  link := hf.link
  file := hf.file
  content_eq id hid hnames := hf.content_eq id hid fun q hq => hnames q (hwritten q hq)
  nextId_le := hf.nextId_le

theorem trans (hf : Framed region written h k) (hg : Framed region written k m) :
    Framed region written h m where
  wellFormed := hg.wellFormed
  find?_eq q hq := (hg.find?_eq q hq).trans (hf.find?_eq q hq)
  link q target hq := hf.link q target (hg.link q target hq)
  file q id hq := by
    rcases hg.file q id hq with hold | hnew
    · exact hf.file q id hold
    · exact .inr (Nat.le_trans hf.nextId_le hnew)
  content_eq id hid hnames := by
    refine (hg.content_eq id (Nat.lt_of_lt_of_le hid hf.nextId_le) fun q hq hfile => ?_).trans
      (hf.content_eq id hid hnames)
    rcases hf.file q id hfile with hold | hnew
    · exact hnames q hq hold
    · exact absurd hid (Nat.not_lt.mpr hnew)
  nextId_le := Nat.le_trans hf.nextId_le hg.nextId_le

/-- What lies outside of the region is seen as before, unless it is a file that also has a name where files
were written. -/
theorem seen_eq (hf : Framed region written h k) (hwf : h.WellFormed) (hq : ¬ region q)
    (hnames : ∀ id p, h.find? q = some (.file id) → h.find? p = some (.file id) → ¬ written p) :
    k.seen q = h.seen q :=
  seen_congr (hf.find?_eq q hq) fun id hid => hf.content_eq id (hwf.fresh hid) fun p hp hfile =>
    hnames id p hid hfile hp

end Framed

/-! ## One change -/

theorem WellFormed.added {d : Location} {v : HostNode} (hwf : h.WellFormed) (hfree : h.Free d n)
    (hfile : ∀ id, v = .file id → id < k.nextId)
    (hfind : ∀ q, k.find? q = if q = d ++ [n] then some v else h.find? q) (hnext : h.nextId ≤ k.nextId) :
    k.WellFormed := by
  -- What is found now was found before, or is what came in.
  have hcases : ∀ {q node}, k.find? q = some node →
      q = d ++ [n] ∧ node = v ∨ q ≠ d ++ [n] ∧ h.find? q = some node := by
    intro q node hq
    rw [hfind] at hq
    split at hq
    · next heq => exact .inl ⟨heq, (Option.some.inj hq).symm⟩
    · next hne => exact .inr ⟨hne, hq⟩
  have hkeep : ∀ {q node}, h.find? q = some node → k.find? q = some node := by
    intro q node hq
    rw [hfind, if_neg]
    · exact hq
    · rintro rfl
      cases hfree.free.symm.trans hq
  refine ⟨hkeep hwf.root, fun hq => ?_, fun hq => ?_, fun hq => ?_, fun hp => ?_⟩
  · rcases hcases hq with ⟨heq, -⟩ | ⟨-, hold⟩
    · obtain ⟨rfl, rfl⟩ := Location.child_inj.mp heq
      exact hkeep hfree.dir
    · exact hkeep (hwf.parent hold)
  · rcases hcases hq with ⟨heq, -⟩ | ⟨-, hold⟩
    · exact (Location.child_inj.mp heq).2 ▸ hfree.childStep
    · exact hwf.childStep hold
  · rcases hcases hq with ⟨heq, -⟩ | ⟨-, hold⟩
    · exact (Location.child_inj.mp heq).2 ▸ hfree.short
    · exact hwf.short hold
  · rcases hcases hp with ⟨-, hnew⟩ | ⟨-, hold⟩
    · exact hfile _ hnew.symm
    · exact Nat.lt_of_lt_of_le (hwf.fresh hold) hnext

/-- Something that is no link came into a directory. -/
theorem Framed.of_added {d : Location} {v : HostNode} (hwf : h.WellFormed) (hfree : h.Free d n)
    (hlink : ∀ target, v ≠ .link target) (hfile : ∀ id, v = .file id → id = h.nextId ∧ id < k.nextId)
    (hfind : ∀ q, k.find? q = if q = d ++ [n] then some v else h.find? q)
    (hcontent : ∀ id < h.nextId, k.content id = h.content id) (hnext : h.nextId ≤ k.nextId) :
    Framed (d ++ [n] <+: ·) written h k where
  wellFormed := hwf.added hfree (fun id hid => (hfile id hid).2) hfind hnext
  find?_eq q hq := by
    rw [hfind, if_neg]
    rintro rfl
    exact hq (List.prefix_refl _)
  link q target hq := by
    rw [hfind] at hq
    split at hq
    · exact absurd (Option.some.inj hq) (hlink target)
    · exact hq
  file q id hq := by
    rw [hfind] at hq
    split at hq
    · exact .inr (Nat.le_of_eq (hfile id (Option.some.inj hq)).1.symm)
    · exact .inl hq
  content_eq id hid _ := hcontent id hid
  nextId_le := hnext

/-- The content of a file was replaced. -/
theorem Framed.of_written (hwf : h.WellFormed) {id : Nat} (hfile : h.find? p = some (.file id))
    (hfind : ∀ q, k.find? q = h.find? q) (hcontent : ∀ other, other ≠ id → k.content other = h.content other)
    (hnext : k.nextId = h.nextId) : Framed (p <+: ·) (p <+: ·) h k where
  wellFormed :=
    { root := (hfind []).trans hwf.root
      parent := fun hq => (hfind _).trans (hwf.parent ((hfind _).symm.trans hq))
      childStep := fun hq => hwf.childStep ((hfind _).symm.trans hq)
      short := fun hq => hwf.short ((hfind _).symm.trans hq)
      fresh := fun hq => hnext ▸ hwf.fresh ((hfind _).symm.trans hq) }
  find?_eq q _ := hfind q
  link q _ hq := (hfind q).symm.trans hq
  file q _ hq := .inl ((hfind q).symm.trans hq)
  content_eq other _ hnames := hcontent other fun heq => hnames p (List.prefix_refl p) (heq ▸ hfile)
  nextId_le := Nat.le_of_eq hnext.symm

/-- Something went with everything below it. -/
theorem Framed.of_removed (hwf : h.WellFormed) (hp : p ≠ [])
    (hfind : ∀ q, k.find? q = if p <+: q then none else h.find? q)
    (hcontent : ∀ id, k.content id = h.content id) (hnext : k.nextId = h.nextId) :
    Framed (p <+: ·) written h k := by
  have hkeep : ∀ {q node}, k.find? q = some node → ¬ p <+: q ∧ h.find? q = some node := by
    intro q node hq
    rw [hfind] at hq
    split at hq
    · cases hq
    · next hne => exact ⟨hne, hq⟩
  refine ⟨⟨?_, fun hq => ?_, fun hq => hwf.childStep (hkeep hq).2, fun hq => hwf.short (hkeep hq).2,
    fun hq => hnext ▸ hwf.fresh (hkeep hq).2⟩, fun q hq => ?_, fun q _ hq => (hkeep hq).2,
    fun q _ hq => .inl (hkeep hq).2, fun id _ _ => hcontent id, Nat.le_of_eq hnext.symm⟩
  · rw [hfind, if_neg (fun hnil => hp (List.prefix_nil.mp hnil))]
    exact hwf.root
  · obtain ⟨hne, hold⟩ := hkeep hq
    rw [hfind, if_neg (fun hbelow => hne (hbelow.trans (List.prefix_append _ _)))]
    exact hwf.parent hold
  · rw [hfind, if_neg hq]

end FileProvider.Host
