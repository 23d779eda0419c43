import FileProvider.Proofs.Memory.WellFormed

/-!
# Giving a tree another place

Renaming rewrites the location of every node in a tree and then the listings of two parents. In a
well-formed store that carries the whole tree, and the store stays well-formed.
-/

set_option autoImplicit false

namespace FileProvider.Memory

namespace Store

variable {s : Store} {p q l k : Location} {n m : String}

/-! ## Carrying a tree -/

section

variable (h : s.WellFormed) (hapart : Location.Apart l k)
  (hroom : ∀ found, s.find? k = some found → found.names = [])

include hapart

/-- Carrying a tree moves all its nodes. -/
theorem moved_carried (h : s.KeysNodup) :
    Moved l k ((s.erase k).within l) (s.erase k) (s.carried l k) :=
  moved_moveNodes hapart _ _ ((h.erase k).sublist List.filter_sublist) fun _ hm =>
    (mem_within.mp hm).1

include h

/-- Nothing is left where a tree was carried away. -/
theorem find?_carried_source (r : Location) : (s.carried l k).find? (l ++ r) = none := by
  have hmoved := moved_carried hapart h.keys
  by_cases hr : l ++ r ∈ (s.erase k).within l
  · exact hmoved.gone r hr
  · rw [hmoved.other _ hr fun r' _ => hapart.append_ne r r', ← Option.not_isSome_iff_eq_none]
    exact fun hsome => hr (mem_within.mpr ⟨List.prefix_append l r, hsome⟩)

include hroom

/-- A tree that was carried is found at its new place, and nothing else is. -/
theorem find?_carried_target (r : Location) :
    (s.carried l k).find? (k ++ r) = s.find? (l ++ r) := by
  have hmoved := moved_carried hapart h.keys
  have hsource : (s.erase k).find? (l ++ r) = s.find? (l ++ r) := by
    rw [find?_erase, if_neg]
    simpa only [List.append_nil] using hapart.append_ne r []
  have hcleared : (s.erase k).find? (k ++ r) = none := by
    rw [find?_erase]
    split
    · rfl
    · next hne =>
      have hr : r ≠ [] := fun hnil => hne (by rw [hnil, List.append_nil])
      refine h.none_below_empty ?_ hr
      cases hk : s.find? k with
      | none => exact names_of_none hk
      | some found => rw [names_of_find? hk, hroom found hk]
  by_cases hr : l ++ r ∈ (s.erase k).within l
  · rw [hmoved.here r hr, hcleared, Option.or_none, hsource]
  · have hnone : (s.erase k).find? (l ++ r) = none := by
      rw [← Option.not_isSome_iff_eq_none]
      exact fun hsome => hr (mem_within.mpr ⟨List.prefix_append l r, hsome⟩)
    rw [← hsource, hnone, ← hcleared]
    refine hmoved.other _ (fun hmem => ?_) fun r' hr' heq => ?_
    · exact hapart.not_within_of_within (mem_within.mp hmem).1 (List.prefix_append k r)
    · exact hr (List.append_cancel_left heq ▸ hr')

omit hroom

/-- What lies in neither tree stays where it is. -/
theorem find?_carried_other {a : Location} (hl : ¬ l <+: a) (hk : ¬ k <+: a) :
    (s.carried l k).find? a = s.find? a := by
  rw [(moved_carried hapart h.keys).other a (fun hmem => hl (mem_within.mp hmem).1)
    fun r _ heq => hk (heq ▸ List.prefix_append k r), find?_erase, if_neg]
  exact fun heq => hk (heq ▸ List.prefix_refl a)

end

/-! ## Giving a tree another place -/

section

variable (h : s.WellFormed) (hapart : Location.Apart (p ++ [n]) (q ++ [m]))
  (hroom : ∀ found, s.find? (q ++ [m]) = some found → found.names = [])

include h hapart

/-- Nothing is left where a tree was. -/
theorem find?_relocated_source (r : Location) :
    (s.relocated p n q m).find? (p ++ [n] ++ r) = none := by
  rw [relocated, find?_attach, find?_detach, find?_carried_source h hapart]
  rfl

/-- Outside the two trees only the listings of their parents change. -/
theorem find?_relocated_other {a : Location} (hsource : ¬ p ++ [n] <+: a)
    (htarget : ¬ q ++ [m] <+: a) :
    (s.relocated p n q m).find? a
      = ((s.find? a).map (Node.detachAt a p n)).map (Node.attachAt a q m) := by
  rw [relocated, find?_attach, find?_detach, find?_carried_other h hapart hsource htarget]

include hroom

/-- A tree that was given another place is found there. -/
theorem find?_relocated_target (r : Location) :
    (s.relocated p n q m).find? (q ++ [m] ++ r) = s.find? (p ++ [n] ++ r) := by
  have hp : q ++ [m] ++ r ≠ p := fun heq =>
    hapart.symm.not_within_parent (heq ▸ List.prefix_append _ r)
  have hq : q ++ [m] ++ r ≠ q := by
    rw [← List.append_cons]
    exact (Location.ne_append q (List.cons_ne_nil m r)).symm
  rw [relocated, find?_attach, find?_detach, find?_carried_target h hapart hroom, Option.map_map]
  have hsame : Node.attachAt (q ++ [m] ++ r) q m ∘ Node.detachAt (q ++ [m] ++ r) p n = id := by
    funext node
    rw [Function.comp_apply, Node.detachAt_ne hp, Node.attachAt_ne hq, id]
  rw [hsame, Option.map_id, id]

end

/-- Nobody uses up an inode number, and no location comes to stand twice. -/
theorem nextIno_relocated : (s.relocated p n q m).nextIno = s.nextIno := by
  rw [relocated, nextIno_attach, nextIno_detach, carried, nextIno_moveNodes]
  rfl

theorem KeysNodup.relocated (h : s.KeysNodup) (p : Location) (n : String) (q : Location)
    (m : String) : (s.relocated p n q m).KeysNodup :=
  (((h.erase _).moveNodes _).adjust _ _).adjust _ _

/-- Every node comes from one of the store before. -/
theorem Sane.relocated (h : s.WellFormed) (hapart : Location.Apart (p ++ [n]) (q ++ [m]))
    (hroom : ∀ found, s.find? (q ++ [m]) = some found → found.names = [])
    (hq : s.IsDir q) (hm : IsName m) : (s.relocated p n q m).Sane := by
  have htarget : ∀ r, Catalogue.rebase (q ++ [m]) (p ++ [n]) (q ++ [m] ++ r) = p ++ [n] ++ r :=
    Catalogue.rebase_append _ _
  have hother : ∀ {a}, ¬ q ++ [m] <+: a → Catalogue.rebase (q ++ [m]) (p ++ [n]) a = a :=
    Catalogue.rebase_of_not_within _
  -- Whatever is found afterwards lies in the new tree or in neither.
  have hplace : ∀ {a}, ((s.relocated p n q m).find? a).isSome = true →
      (∃ r, a = q ++ [m] ++ r) ∨ ¬ p ++ [n] <+: a ∧ ¬ q ++ [m] <+: a := by
    intro a ha
    rcases Location.within_cases (p ++ [n]) (q ++ [m]) a with ⟨r, rfl⟩ | hrest
    · rw [find?_relocated_source h hapart] at ha
      cases ha
    · exact hrest
  refine h.toSane.of_origin (Catalogue.rebase (q ++ [m]) (p ++ [n])) ?_ (fun a ha => ?_)
    (fun a node ha => ?_) (fun a b ha hb heq => ?_) nextIno_relocated.symm (h.keys.relocated p n q m)
  · obtain ⟨node, hroot, hdir⟩ := isDir_iff.mp h.root
    have hfind := find?_relocated_other h hapart
      (fun hp => hapart.ne_nil (List.prefix_nil.mp hp))
      (fun hp => hapart.symm.ne_nil (List.prefix_nil.mp hp))
    rw [hroot, Option.map_some, Option.map_some] at hfind
    exact isDir_iff.mpr ⟨_, hfind, by rw [Node.isDir_attachAt, Node.isDir_detachAt, hdir]⟩
  · rcases hplace ha with ⟨r, rfl⟩ | ⟨hs, ht⟩
    · rw [find?_relocated_target h hapart hroom] at ha
      refine Location.proper_append.mpr ⟨Location.proper_child.mpr ⟨h.proper q hq.isSome, hm⟩, ?_⟩
      exact (Location.proper_append.mp (h.proper _ ha)).2
    · rw [find?_relocated_other h hapart hs ht, Option.isSome_map, Option.isSome_map] at ha
      exact h.proper a ha
  · rcases hplace (Option.isSome_iff_exists.mpr ⟨node, ha⟩) with ⟨r, rfl⟩ | ⟨hs, ht⟩
    · rw [find?_relocated_target h hapart hroom] at ha
      exact ⟨node, by rw [htarget, ha], rfl, id⟩
    · rw [find?_relocated_other h hapart hs ht] at ha
      obtain ⟨mid, hmid, rfl⟩ := Option.map_eq_some_iff.mp ha
      obtain ⟨old, hold, rfl⟩ := Option.map_eq_some_iff.mp hmid
      refine ⟨old, by rw [hother ht, hold], by rw [Node.ino_attachAt, Node.ino_detachAt], ?_⟩
      exact fun hnodup => Node.nodup_names_attachAt (Node.nodup_names_detachAt hnodup)
  · rcases hplace ha with ⟨r, rfl⟩ | ⟨hs, ht⟩ <;> rcases hplace hb with ⟨r', rfl⟩ | ⟨hs', ht'⟩
    · rw [htarget, htarget] at heq
      rw [List.append_cancel_left heq]
    · rw [htarget, hother ht'] at heq
      exact absurd (heq ▸ List.prefix_append _ r) hs'
    · rw [htarget, hother ht] at heq
      exact absurd (heq.symm ▸ List.prefix_append _ r') hs
    · rwa [hother ht, hother ht'] at heq

/-- A tree lies apart from a place that is free or can be freed, if it does not lie above it. -/
theorem WellFormed.apart_of_room (h : s.WellFormed) {source target : Location}
    (hsource : (s.find? source).isSome = true) (hbelow : ¬ source <+: target)
    (hroom : ∀ found, s.find? target = some found → found.names = []) :
    Location.Apart source target := by
  refine ⟨hbelow, ?_⟩
  rintro ⟨r, rfl⟩
  by_cases hr : r = []
  · rw [hr, List.append_nil] at hbelow
    exact hbelow (List.prefix_refl target)
  · have hempty : s.names target = [] := by
      obtain ⟨ino, names, htarget⟩ := h.isDir_above r hr hsource
      rw [names_of_find? htarget, hroom _ htarget]
    rw [h.none_below_empty hempty hr] at hsource
    cases hsource

/-- Giving a tree another place keeps a store well-formed. -/
theorem WellFormed.relocated (h : s.WellFormed) (hapart : Location.Apart (p ++ [n]) (q ++ [m]))
    (hroom : ∀ found, s.find? (q ++ [m]) = some found → found.names = [])
    (hsource : (s.find? (p ++ [n])).isSome = true) (hq : s.IsDir q) (hm : IsName m) :
    (s.relocated p n q m).WellFormed := by
  refine ⟨Sane.relocated h hapart hroom hq hm, fun a b => ?_⟩
  rcases Location.within_cases (p ++ [n]) (q ++ [m]) a with ⟨r, rfl⟩ | ⟨r, rfl⟩ | ⟨hs, ht⟩
  · rw [List.append_assoc, find?_relocated_source h hapart,
      names_of_none (find?_relocated_source h hapart r)]
    exact ⟨fun hf => absurd hf Bool.false_ne_true, fun hf => absurd hf List.not_mem_nil⟩
  · have hnames : (s.relocated p n q m).names (q ++ [m] ++ r) = s.names (p ++ [n] ++ r) := by
      rw [names, find?_relocated_target h hapart hroom, names]
    rw [List.append_assoc, find?_relocated_target h hapart hroom, hnames, ← List.append_assoc,
      h.listed]
  · -- Outside the two trees the children are those before, less the source and with the target.
    have hdir : ((s.carried (p ++ [n]) (q ++ [m])).detach p n).IsDir q := by
      obtain ⟨node, hnode, hdir⟩ := isDir_iff.mp hq
      refine isDir_iff.mpr ⟨node.detachAt q p n, ?_, Node.isDir_detachAt.trans hdir⟩
      rw [find?_detach, find?_carried_other h hapart hapart.not_within_parent
        (fun hp => Location.not_within_child q m hp), hnode, Option.map_some]
    have hnames : (s.carried (p ++ [n]) (q ++ [m])).names a = s.names a :=
      names_congr (find?_carried_other h hapart hs ht)
    rw [Store.relocated, mem_names_attach hdir, mem_names_detach, hnames, ← h.listed,
      ← Location.child_inj, ← Location.child_inj, ← Store.relocated]
    by_cases hchild : a ++ [b] = q ++ [m]
    · have hfind := find?_relocated_target h hapart hroom []
      rw [List.append_nil, List.append_nil] at hfind
      rw [hchild, hfind]
      exact ⟨fun _ => .inr rfl, fun _ => hsource⟩
    · rw [or_iff_left hchild]
      by_cases hgone : a ++ [b] = p ++ [n]
      · have hfind := find?_relocated_source h hapart []
        rw [List.append_nil] at hfind
        rw [hgone, hfind]
        exact ⟨fun hf => absurd hf Bool.false_ne_true, fun hf => absurd rfl hf.2⟩
      · rw [and_iff_left hgone, find?_relocated_other h hapart, Option.isSome_map, Option.isSome_map]
        · exact fun hp => (Location.prefix_child.mp hp).elim hs fun heq => hgone heq.symm
        · exact fun hp => (Location.prefix_child.mp hp).elim ht fun heq => hchild heq.symm

end Store

end FileProvider.Memory
