import FileProvider.Proofs.Memory.Session

/-!
# When renaming succeeds, and what it does

Renaming collects everything at and below the old place and moves it node by node. No order of the nodes is
better than another: each of them goes to a place of its own, at which there is nothing once room was made, so
after any order the same is found everywhere. What stands in the way of renaming can be told beforehand, and
nothing else does.
-/

set_option autoImplicit false

namespace FileProvider.Memory

namespace Store

variable {s t u : Store} {source target p q a : Location} {n m : String} {order order' : List Location}
  {arrange : List Location → List Location} {node : Node}

/-! ## The order of the nodes -/

/-- Moving the same nodes in another order leads to the same places. -/
theorem Moved.congr (h : Moved source target order s t) (h' : Moved source target order' s u)
    (hsame : ∀ k, k ∈ order ↔ k ∈ order') (hbelow : ∀ k ∈ order, source <+: k) (a : Location) :
    t.find? a = u.find? a := by
  by_cases ha : a ∈ order
  · obtain ⟨r, rfl⟩ := hbelow a ha
    rw [h.gone r ha, h'.gone r ((hsame _).mp ha)]
  · by_cases hplace : ∃ r, source ++ r ∈ order ∧ a = target ++ r
    · obtain ⟨r, hr, rfl⟩ := hplace
      rw [h.here r hr, h'.here r ((hsame _).mp hr)]
    · have hnot : ∀ r, source ++ r ∈ order → a ≠ target ++ r := fun r hr heq => hplace ⟨r, hr, heq⟩
      rw [h.other a ha hnot, h'.other a (fun hmem => ha ((hsame a).mpr hmem))
        fun r hr => hnot r ((hsame _).mpr hr)]

/-- The order in which the nodes were moved cannot be seen afterwards. -/
theorem find?_relocatedAlong (h : s.KeysNodup) (hapart : Location.Apart (p ++ [n]) (q ++ [m]))
    (harrange : ∀ ks, (arrange ks).Perm ks) (a : Location) :
    (s.relocatedAlong arrange p n q m).find? a = (s.relocated p n q m).find? a := by
  have hperm := harrange ((s.erase (q ++ [m])).within (p ++ [n]))
  have hnodup : (arrange ((s.erase (q ++ [m])).within (p ++ [n]))).Nodup :=
    hperm.nodup_iff.mpr ((h.erase _).sublist List.filter_sublist)
  have hbelow : ∀ k ∈ arrange ((s.erase (q ++ [m])).within (p ++ [n])), p ++ [n] <+: k :=
    fun k hk => (mem_within.mp (hperm.mem_iff.mp hk)).1
  have hmoved := moved_moveNodes hapart _ (s.erase (q ++ [m])) hnodup hbelow
  rw [relocatedAlong, relocated, find?_attach, find?_attach, find?_detach, find?_detach,
    hmoved.congr (moved_carried hapart h) (fun k => hperm.mem_iff) hbelow a]

/-! ## What stands in the way -/

/-- Whether a node may come to a place: nothing is there, or it is a file and so is what is there, or it is a
directory and what is there is an empty one. -/
def HasRoom (s : Store) (l : Location) (node : Node) : Prop :=
  s.find? l = none ∨ (node.isDir = false ∧ ∃ ino data, s.find? l = some (.file ino data)) ∨
    (node.isDir = true ∧ ∃ ino, s.find? l = some (.dir ino []))

theorem hasRoom_iff : s.HasRoom a node ↔
    ∀ found, s.find? a = some found → found.isDir = node.isDir ∧ found.names = [] := by
  constructor
  · rintro (hnone | ⟨hfile, ino, data, hfound⟩ | ⟨hdir, ino, hfound⟩) found hat
    · cases hnone.symm.trans hat
    · cases hfound.symm.trans hat
      exact ⟨hfile.symm, rfl⟩
    · cases hfound.symm.trans hat
      exact ⟨hdir.symm, rfl⟩
  · intro h
    cases hfound : s.find? a with
    | none => exact .inl hfound
    | some found =>
      obtain ⟨hkind, hnames⟩ := h found hfound
      cases found with
      | file ino data => exact .inr (.inl ⟨hkind.symm, ino, data, hfound⟩)
      | dir ino names =>
        obtain rfl : names = [] := hnames
        exact .inr (.inr ⟨hkind.symm, ino, hfound⟩)

end Store

variable {s t : Store} {arrange : List Location → List Location} {source target p q : Location} {n m : String}

theorem makeRoom_of_hasRoom {node : Node} {l : Location} (h : s.HasRoom l node) :
    makeRoom node l s = .ok () (s.erase l) := by
  rw [makeRoom_apply]
  rcases h with hnone | ⟨hfile, ino, data, hfound⟩ | ⟨hdir, ino, hfound⟩
  · rw [hnone, Store.erase_of_none hnone]
  · rw [hfound, hfile]
    rfl
  · rw [hfound, hdir]
    rfl

/-- Whether an entry can be renamed: it is there, and the new place is the old one, or it is not below the old
one, entries can come there and there is room for this one. -/
def Store.Renamable (s : Store) (source target : Location) : Prop :=
  ∃ node, s.find? source = some node ∧ (source = target ∨
    ¬ source <+: target ∧ s.Admits target ∧ s.HasRoom target node)

/-- Renaming succeeds exactly if nothing stands in the way. -/
theorem renameAlong_ok_iff (h : s.WellFormed) :
    (∃ t, renameAlong arrange source target s = .ok () t) ↔ s.Renamable source target := by
  constructor
  · rintro ⟨t, ht⟩
    rcases renameAlong_cases arrange source target s with ⟨e, he⟩ | ⟨heq, hsome, -⟩ |
      ⟨p, n, q, m, node, -, htarget, hsource, hbelow, hm, hdir, hroom, -⟩
    · cases he.symm.trans ht
    · obtain ⟨node, hnode⟩ := Option.isSome_iff_exists.mp hsome
      exact ⟨node, hnode, .inl heq⟩
    · exact ⟨node, hsource, .inr ⟨hbelow, ⟨q, m, htarget, hm, hdir⟩, Store.hasRoom_iff.mpr hroom⟩⟩
  · rintro ⟨node, hsource, rfl | ⟨hbelow, ⟨q, m, rfl, hm, hq⟩, hroom⟩⟩
    · exact ⟨s, renameAlong_self arrange hsource⟩
    · obtain ⟨p, n, rfl⟩ := Location.exists_eq_append fun hnil => hbelow (hnil ▸ List.nil_prefix)
      have hn : Name.isText n = true := h.isText (Option.isSome_iff_exists.mpr ⟨node, hsource⟩)
      rw [renameAlong_child arrange hsource hn hbelow, holderOf_child hm hq]
      dsimp only
      rw [makeRoom_of_hasRoom hroom]
      exact ⟨_, rfl⟩

/-! ## What renaming does -/

/-- What a store becomes when the entry `n` of the directory `p` is made the entry `m` of the directory `q`. -/
structure Store.Renamed (p : Location) (n : String) (q : Location) (m : String) (s t : Store) : Prop where
  /-- Each node of the tree is at the same relative place as before, with its number, content and names. -/
  here : ∀ r, t.find? (q ++ [m] ++ r) = s.find? (p ++ [n] ++ r)
  /-- Nothing is left of the tree at its old place. -/
  gone : ∀ r, t.find? (p ++ [n] ++ r) = none
  /-- What was at the new place is nowhere any more. -/
  replaced : ∀ old, s.find? (q ++ [m]) = some old → ∀ a node, t.find? a = some node → node.ino ≠ old.ino
  /-- Everything else is as it was, but the one directory lists the old name no longer, and the other one lists
  the new name, behind its others unless it was listed already. -/
  other : ∀ a, ¬ p ++ [n] <+: a → ¬ q ++ [m] <+: a →
    t.find? a = ((s.find? a).map (Node.detachAt a p n)).map (Node.attachAt a q m)

/-- Relocating a tree does what renaming is to do. -/
theorem Store.WellFormed.renamed (h : s.WellFormed) (hapart : Location.Apart (p ++ [n]) (q ++ [m]))
    (hroom : ∀ found, s.find? (q ++ [m]) = some found → found.names = [])
    (hfind : ∀ a, t.find? a = (s.relocated p n q m).find? a) : Store.Renamed p n q m s t := by
  have hother : ∀ a, ¬ p ++ [n] <+: a → ¬ q ++ [m] <+: a →
      t.find? a = ((s.find? a).map (Node.detachAt a p n)).map (Node.attachAt a q m) :=
    fun a hsource htarget => (hfind a).trans (Store.find?_relocated_other h hapart hsource htarget)
  have hgone : ∀ r, t.find? (p ++ [n] ++ r) = none :=
    fun r => (hfind _).trans (Store.find?_relocated_source h hapart r)
  have hhere : ∀ r, t.find? (q ++ [m] ++ r) = s.find? (p ++ [n] ++ r) :=
    fun r => (hfind _).trans (Store.find?_relocated_target h hapart hroom r)
  refine ⟨hhere, hgone, fun old hold a node hnode heq => ?_, hother⟩
  -- Whatever is found now was found before, and not at the new place.
  rcases Location.within_cases (p ++ [n]) (q ++ [m]) a with ⟨r, rfl⟩ | ⟨r, rfl⟩ | ⟨hsource, htarget⟩
  · cases (hgone r).symm.trans hnode
  · rw [hhere] at hnode
    have hplace := h.ino_inj _ _ _ _ hnode hold heq
    rw [← List.append_nil (q ++ [m])] at hplace
    exact hapart.append_ne r [] hplace
  · rw [hother a hsource htarget] at hnode
    obtain ⟨mid, hmid, rfl⟩ := Option.map_eq_some_iff.mp hnode
    obtain ⟨before, hbefore, rfl⟩ := Option.map_eq_some_iff.mp hmid
    rw [Node.ino_attachAt, Node.ino_detachAt] at heq
    exact htarget (h.ino_inj _ _ _ _ hbefore hold heq ▸ List.prefix_refl _)

end FileProvider.Memory
