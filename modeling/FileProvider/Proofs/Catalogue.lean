import Mathlib.Data.List.Nodup
import FileProvider.Proofs.Path.Apart

/-!
# Reading a catalogue that was changed

What is found in a catalogue after a location was put or erased, and which locations it has. A
catalogue in which every location stands once stays so, and erasing a location that was put at a free
place undoes it.
-/

set_option autoImplicit false

namespace FileProvider.Catalogue

variable {ν : Type}

/-- Reading the first entry of a catalogue, or the others. -/
theorem find?_cons (k : Location) (v : ν) (c : Catalogue ν) (l : Location) :
    find? ((k, v) :: c) l = if l = k then some v else c.find? l := by
  rw [find?, List.lookup_cons]
  by_cases h : l = k
  · rw [if_pos h, beq_iff_eq.mpr h]
  · rw [if_neg h, beq_eq_false_iff_ne.mpr h]
    rfl

/-- A location is found exactly if it is among the keys. -/
theorem isSome_find? (c : Catalogue ν) (l : Location) :
    (c.find? l).isSome = true ↔ l ∈ c.map Prod.fst := by
  rw [find?, List.lookup_isSome_iff, List.mem_map]
  constructor
  · rintro ⟨e, he, hl⟩
    exact ⟨e, he, (beq_iff_eq.mp hl).symm⟩
  · rintro ⟨e, he, rfl⟩
    exact ⟨e, he, beq_self_eq_true _⟩

/-- What is found is there. -/
theorem mem_of_find? {c : Catalogue ν} {l : Location} {v : ν} (h : c.find? l = some v) : (l, v) ∈ c := by
  obtain ⟨before, after, rfl, -⟩ := List.lookup_eq_some_iff.mp h
  exact List.mem_append_right _ List.mem_cons_self

/-- Reading a catalogue whose entries at one location were overwritten. -/
theorem find?_map (c : Catalogue ν) (l k : Location) (v : ν) :
    find? (c.map fun e => if e.1 = l then (l, v) else e) k
      = if k = l then (c.find? l).map fun _ => v else c.find? k := by
  induction c with
  | nil => split <;> rfl
  | cons e c ih =>
    obtain ⟨m, w⟩ := e
    by_cases hm : m = l
    · subst hm
      rw [List.map_cons, if_pos rfl, find?_cons, ih, find?_cons, if_pos rfl]
      by_cases hk : k = m
      · rw [if_pos hk, if_pos hk, Option.map_some]
      · rw [if_neg hk, if_neg hk, if_neg hk, find?_cons, if_neg hk]
    · rw [List.map_cons, if_neg hm, find?_cons, ih, find?_cons, if_neg (Ne.symm hm), find?_cons]
      by_cases hk : k = l
      · rw [if_pos hk, if_pos hk, if_neg (fun h => hm (h.symm.trans hk))]
      · rw [if_neg hk, if_neg hk]

/-- What was put is found at its location, and everything else where it was. -/
theorem find?_put (c : Catalogue ν) (l k : Location) (v : ν) :
    (c.put l v).find? k = if k = l then some v else c.find? k := by
  unfold put has
  cases hl : c.find? l with
  | some w =>
    rw [Option.isSome_some, if_pos rfl, find?_map, hl, Option.map_some]
  | none =>
    rw [Option.isSome_none, if_neg Bool.false_ne_true]
    change List.lookup k (c ++ [(l, v)]) = _
    rw [List.lookup_append]
    change (c.find? k).or (find? [(l, v)] k) = _
    rw [find?_cons]
    by_cases hk : k = l
    · rw [if_pos hk, if_pos hk, hk, hl, Option.none_or]
    · rw [if_neg hk, if_neg hk]
      exact Option.or_none

/-- Nothing is found at a location that was erased, and everything else where it was. -/
theorem find?_erase (c : Catalogue ν) (l k : Location) :
    (c.erase l).find? k = if k = l then none else c.find? k := by
  unfold erase
  induction c with
  | nil => split <;> rfl
  | cons e c ih =>
    obtain ⟨m, w⟩ := e
    rw [List.filter_cons]
    by_cases hm : m = l
    · subst hm
      rw [if_neg (by simp only [ne_eq, not_true_eq_false, decide_false, Bool.false_eq_true,
        not_false_eq_true]), ih]
      by_cases hk : k = m
      · rw [if_pos hk, if_pos hk]
      · rw [if_neg hk, if_neg hk, find?_cons, if_neg hk]
    · rw [if_pos (decide_eq_true hm), find?_cons, ih, find?_cons]
      by_cases hk : k = l
      · rw [if_pos hk, if_pos hk, if_neg (fun h => hm (h.symm.trans hk))]
      · rw [if_neg hk, if_neg hk]

/-- Nothing is found at or below a location that was erased with everything below it, and everything else
where it was. -/
theorem find?_eraseTree (c : Catalogue ν) (l k : Location) :
    (c.eraseTree l).find? k = if l <+: k then none else c.find? k := by
  unfold eraseTree
  induction c with
  | nil => split <;> rfl
  | cons e c ih =>
    obtain ⟨m, w⟩ := e
    rw [List.filter_cons]
    by_cases hm : l.isWithin m = true
    · have hbelow : l <+: m := List.isPrefixOf_iff_prefix.mp hm
      rw [if_neg (by rw [hm]; exact Bool.false_ne_true), ih, find?_cons]
      by_cases hk : l <+: k
      · rw [if_pos hk, if_pos hk]
      · have hne : k ≠ m := fun heq => hk (heq ▸ hbelow)
        rw [if_neg hk, if_neg hk, if_neg hne]
    · have hbelow : ¬ l <+: m := fun h => hm (List.isPrefixOf_iff_prefix.mpr h)
      rw [if_pos (by rw [Bool.not_eq_true] at hm; rw [hm]; rfl), find?_cons, ih, find?_cons]
      by_cases hk : k = m
      · rw [if_pos hk, if_pos hk, if_neg (fun h => hbelow (hk ▸ h))]
      · rw [if_neg hk, if_neg hk]

/-- What is walked through below a location lies below it. -/
theorem within_of_mem_walk {c : Catalogue ν} {arrange : List (String × ν) → List (String × ν)} {depth : Nat}
    {l : Location} {e : Location × ν} (he : e ∈ c.walk arrange depth l) : l <+: e.1 := by
  induction depth generalizing l with
  | zero => exact absurd he List.not_mem_nil
  | succ depth ih =>
    obtain ⟨⟨name, v⟩, -, hmem⟩ := List.mem_flatMap.mp he
    refine (List.prefix_append l [name]).trans ?_
    rcases List.mem_cons.mp hmem with rfl | hbelow
    · exact List.prefix_refl _
    · exact ih hbelow

/-- Giving a location another place keeps what lies within neither of the two. -/
theorem find?_relocate {c : Catalogue ν} {source target l : Location} (hsource : ¬ source <+: l)
    (htarget : ¬ target <+: l) : (c.relocate source target).find? l = c.find? l := by
  have hrebased : ∀ d : Catalogue ν,
      find? (d.map fun e => (rebase source target e.1, e.2)) l = d.find? l := by
    intro d
    induction d with
    | nil => rfl
    | cons e d ih =>
      obtain ⟨k, w⟩ := e
      rw [List.map_cons, find?_cons, find?_cons, ih]
      by_cases hk : source <+: k
      · obtain ⟨r, rfl⟩ := hk
        have hold : l ≠ source ++ r := fun heq => hsource ⟨r, heq.symm⟩
        have hnew : l ≠ target ++ r := fun heq => htarget ⟨r, heq.symm⟩
        rw [rebase_append, if_neg hold, if_neg hnew]
      · rw [rebase_of_not_within target hk]
  unfold relocate
  cases c.find? source with
  | none => rfl
  | some v =>
    have hold : l ≠ source := fun heq => hsource (heq ▸ List.prefix_refl _)
    have hnew : l ≠ target := fun heq => htarget (heq ▸ List.prefix_refl _)
    dsimp only
    rw [find?_put, if_neg hnew]
    refine (hrebased (c.erase source)).trans ?_
    rw [find?_erase, if_neg hold]

/-- Putting something at a location that is there keeps the keys; otherwise the location comes last. -/
theorem keys_put (c : Catalogue ν) (l : Location) (v : ν) :
    (c.put l v).map Prod.fst
      = if l ∈ c.map Prod.fst then c.map Prod.fst else c.map Prod.fst ++ [l] := by
  unfold put has
  by_cases h : l ∈ c.map Prod.fst
  · rw [if_pos h, if_pos ((isSome_find? c l).mpr h), List.map_map]
    refine List.map_congr_left fun e _ => ?_
    by_cases he : e.1 = l
    · rw [Function.comp_apply, if_pos he, he]
    · rw [Function.comp_apply, if_neg he]
  · rw [if_neg h, if_neg (fun hsome => h ((isSome_find? c l).mp hsome)), List.map_append]
    rfl

/-- Putting something keeps every location standing once. -/
theorem nodup_keys_put {c : Catalogue ν} (h : (c.map Prod.fst).Nodup) (l : Location) (v : ν) :
    ((c.put l v).map Prod.fst).Nodup := by
  rw [keys_put]
  split
  · exact h
  · next hl =>
    refine List.nodup_append.mpr ⟨h, List.pairwise_singleton _ l, ?_⟩
    intro k hk m hm heq
    exact hl (List.mem_singleton.mp hm ▸ heq ▸ hk)

/-- Where every location stands once, what is there is found. -/
theorem find?_of_mem {c : Catalogue ν} (honce : (c.map Prod.fst).Nodup) {l : Location} {v : ν}
    (h : (l, v) ∈ c) : c.find? l = some v := by
  obtain ⟨before, after, rfl⟩ := List.append_of_mem h
  rw [List.map_append, List.map_cons] at honce
  have hnew : ∀ e ∈ before, (l != e.1) = true := fun e he => bne_iff_ne.mpr fun heq =>
    (List.nodup_append.mp honce).2.2 e.1 (List.mem_map_of_mem he) l List.mem_cons_self heq.symm
  exact List.lookup_eq_some_iff.mpr ⟨before, after, rfl, hnew⟩

/-- Two catalogues that have the same locations in the same order, each once, and at each the same, are
one. -/
theorem eq_of_find? {c d : Catalogue ν} (hkeys : c.map Prod.fst = d.map Prod.fst)
    (honce : (c.map Prod.fst).Nodup) (hfind : ∀ l, c.find? l = d.find? l) : c = d := by
  induction c generalizing d with
  | nil =>
    rw [List.map_nil] at hkeys
    exact (List.map_eq_nil_iff.mp hkeys.symm).symm
  | cons e c ih =>
    obtain ⟨k, v⟩ := e
    cases d with
    | nil => cases hkeys
    | cons f d =>
      obtain ⟨m, w⟩ := f
      rw [List.map_cons, List.map_cons, List.cons.injEq] at hkeys
      obtain ⟨rfl : k = m, hkeys⟩ := hkeys
      obtain ⟨hk, honce⟩ := List.nodup_cons.mp honce
      have hfirst := hfind k
      rw [find?_cons, find?_cons, if_pos rfl, if_pos rfl, Option.some.injEq] at hfirst
      have hrest : ∀ l, find? c l = find? d l := by
        intro l
        by_cases hl : l = k
        · have hc : find? c l = none := Option.not_isSome_iff_eq_none.mp fun hsome =>
            hk (hl ▸ (isSome_find? c l).mp hsome)
          have hd : find? d l = none := Option.not_isSome_iff_eq_none.mp fun hsome =>
            hk (hkeys ▸ hl ▸ (isSome_find? d l).mp hsome)
          rw [hc, hd]
        · have hother := hfind l
          rwa [find?_cons, find?_cons, if_neg hl, if_neg hl] at hother
      rw [hfirst, ih hkeys honce hrest]

/-- Erasing a location keeps every other one standing once. -/
theorem nodup_keys_erase {c : Catalogue ν} (h : (c.map Prod.fst).Nodup) (l : Location) :
    ((c.erase l).map Prod.fst).Nodup :=
  h.sublist (List.Sublist.map Prod.fst List.filter_sublist)

/-- Putting what is there already changes nothing. -/
theorem put_same {c : Catalogue ν} (h : (c.map Prod.fst).Nodup) {l : Location} {v : ν}
    (hl : c.find? l = some v) : c.put l v = c := by
  rw [put, has, hl, Option.isSome_some, if_pos rfl]
  induction c with
  | nil => rfl
  | cons e c ih =>
    obtain ⟨k, w⟩ := e
    obtain ⟨hk, hrest⟩ := List.nodup_cons.mp h
    rw [find?_cons] at hl
    by_cases hlk : l = k
    · subst hlk
      rw [if_pos rfl, Option.some.injEq] at hl
      subst hl
      have hother : ∀ e ∈ c, (if e.1 = l then (l, w) else e) = id e := by
        intro e he
        have hel : e.1 ≠ l := fun hel => hk (List.mem_map.mpr ⟨e, he, hel⟩)
        rw [if_neg hel, id]
      rw [List.map_cons, if_pos rfl, List.map_congr_left hother, List.map_id]
    · rw [if_neg hlk] at hl
      rw [List.map_cons, if_neg (Ne.symm hlk), ih hrest hl]

/-- No entry of a catalogue is at a location at which nothing is found. -/
theorem ne_of_mem {c : Catalogue ν} {l : Location} (h : c.find? l = none) {e : Location × ν} (he : e ∈ c) :
    e.1 ≠ l := by
  intro hel
  have hsome := (isSome_find? c l).mpr (List.mem_map.mpr ⟨e, he, hel⟩)
  rw [h] at hsome
  cases hsome

/-- Erasing a location at which nothing is found changes nothing. -/
theorem erase_of_none {c : Catalogue ν} {l : Location} (h : c.find? l = none) : c.erase l = c :=
  List.filter_eq_self.mpr fun _ he => decide_eq_true (ne_of_mem h he)

/-- What was put at a free location is erased without a trace. -/
theorem erase_put_self {c : Catalogue ν} {l : Location} (h : c.find? l = none) (v : ν) :
    (c.put l v).erase l = c := by
  have hfree : ¬ c.has l = true := by
    rw [has, h]
    exact Bool.false_ne_true
  have happend : (c.put l v).erase l = c.erase l ++ erase [(l, v)] l := by
    rw [put, if_neg hfree]
    exact List.filter_append _ _
  have hlast : erase [(l, v)] l = [] := by
    rw [erase, List.filter_singleton, decide_eq_false (not_not_intro rfl)]
    rfl
  rw [happend, hlast, erase_of_none h, List.append_nil]

/-- Putting something at one location and erasing another one can be done in either order. -/
theorem erase_put_of_ne (c : Catalogue ν) {l k : Location} (h : k ≠ l) (v : ν) :
    (c.put l v).erase k = (c.erase k).put l v := by
  have hhas : (c.erase k).has l = c.has l := by rw [has, find?_erase, if_neg h.symm, has]
  unfold put
  rw [hhas]
  split
  · unfold erase
    rw [List.filter_map]
    congr 1
    refine List.filter_congr fun e _ => ?_
    rw [Function.comp_apply]
    by_cases he : e.1 = l
    · rw [if_pos he, he]
    · rw [if_neg he]
  · unfold erase
    rw [List.filter_append, List.filter_singleton, decide_eq_true h.symm]
    rfl

/-- Of two things that are put at one location the second one stays. -/
theorem put_put (c : Catalogue ν) (l : Location) (v w : ν) : (c.put l v).put l w = c.put l w := by
  have hhas : (c.put l v).has l = true := by
    rw [has, find?_put, if_pos rfl]
    rfl
  have hover : (c.put l v).put l w = (c.put l v).map fun e => if e.1 = l then (l, w) else e := if_pos hhas
  rw [hover]
  unfold put
  split
  · rw [List.map_map]
    refine List.map_congr_left fun e _ => ?_
    rw [Function.comp_apply]
    by_cases he : e.1 = l
    · rw [if_pos he, if_pos rfl, if_pos he]
    · rw [if_neg he]
  · next hfree =>
    have hnone : c.find? l = none := Option.not_isSome_iff_eq_none.mp hfree
    have hother : ∀ e ∈ c, (if e.1 = l then (l, w) else e) = id e := fun e he => if_neg (ne_of_mem hnone he)
    rw [List.map_append, List.map_congr_left hother, List.map_id, List.map_singleton, if_pos rfl]

/-- A child is at its own name below its directory. -/
theorem childName?_eq_some {l k : Location} {name : String} (h : l.childName? k = some name) :
    k = l ++ [name] := by
  unfold Location.childName? at h
  split at h
  · next only hprefix =>
    cases h
    exact (List.isPrefixOf?_eq_some_iff_append_eq.mp hprefix).symm
  · cases h

/-- What a directory lists is there, at the child of that name. -/
theorem isSome_of_mem_children {c : Catalogue ν} {l : Location} {name : String} {v : ν}
    (h : (name, v) ∈ c.children l) : (c.find? (l ++ [name])).isSome = true := by
  obtain ⟨e, hmem, hlisted⟩ := List.mem_filterMap.mp h
  obtain ⟨m, hchild, hname⟩ := Option.map_eq_some_iff.mp hlisted
  cases hname
  exact (isSome_find? c _).mpr (List.mem_map.mpr ⟨e, hmem, childName?_eq_some hchild⟩)

/-- A directory that lists nothing has no child. -/
theorem find?_of_children_eq_nil {c : Catalogue ν} {l : Location} (h : c.children l = []) (name : String) :
    c.find? (l ++ [name]) = none := by
  by_contra hne
  obtain ⟨e, hmem, heq⟩ :=
    List.mem_map.mp ((isSome_find? c (l ++ [name])).mp (Option.isSome_iff_ne_none.mpr hne))
  have hchild : l.childName? e.1 = some name := by
    unfold Location.childName?
    rw [heq, List.isPrefixOf?_eq_some_iff_append_eq.mpr rfl]
  have hlisted : (name, e.2) ∈ c.children l :=
    List.mem_filterMap.mpr ⟨e, hmem, congrArg (Option.map fun m => (m, e.2)) hchild⟩
  rw [h] at hlisted
  cases hlisted

/-- Where every location stands once, the names in a directory are distinct. -/
theorem nodup_children {c : Catalogue ν} (h : (c.map Prod.fst).Nodup) (l : Location) :
    ((c.children l).map Prod.fst).Nodup := by
  have hnames : (c.children l).map Prod.fst = (c.map Prod.fst).filterMap l.childName? := by
    rw [children, List.map_filterMap, List.filterMap_map]
    congr 1
    funext e
    simp [Function.comp_def]
  rw [hnames]
  refine List.Nodup.filterMap (fun k m name hk hm => ?_) h
  rw [childName?_eq_some hk, childName?_eq_some hm]

end FileProvider.Catalogue
