import FileProvider.Catalogue
import Mathlib.Data.List.Basic

/-!
# Locations that lie apart

Two locations lie apart if neither is the other or lies below it. Their subtrees then have nothing in
common, which is what every statement about moving one place to another rests on.
-/

set_option autoImplicit false

namespace FileProvider.Location

theorem isWithin_iff {base l : Location} : base.isWithin l = true ↔ base <+: l :=
  List.isPrefixOf_iff_prefix

/-- A location that ends in a name is held by the location before the name. -/
@[simp]
theorem split?_append (p : Location) (n : String) : Location.split? (p ++ [n]) = some (p, n) := by
  rw [split?, List.getLast?_concat, List.dropLast_concat]

theorem eq_nil_or_append (l : Location) : l = [] ∨ ∃ p n, l = p ++ [n] := by
  rcases List.eq_nil_or_concat l with h | ⟨p, n, h⟩
  · exact .inl h
  · exact .inr ⟨p, n, h.trans (List.concat_eq_append ..)⟩

theorem exists_eq_append {l : Location} (h : l ≠ []) : ∃ p n, l = p ++ [n] :=
  (eq_nil_or_append l).resolve_left h

theorem ne_append (l : Location) {r : Location} (hr : r ≠ []) : l ≠ l ++ r := fun h =>
  hr (List.self_eq_append_right.mp h)

theorem ne_child (p : Location) (n : String) : p ≠ p ++ [n] :=
  ne_append p (List.cons_ne_nil n [])

theorem not_within_child (p : Location) (n : String) : ¬ p ++ [n] <+: p := fun h =>
  absurd h.length_le (by rw [List.length_append]; exact Nat.not_succ_le_self _)

theorem child_inj {p q : Location} {n m : String} : p ++ [n] = q ++ [m] ↔ p = q ∧ n = m := by
  constructor
  · intro h
    obtain ⟨hp, hn⟩ := List.append_inj' h rfl
    exact ⟨hp, List.singleton_inj.mp hn⟩
  · rintro ⟨rfl, rfl⟩
    rfl

/-- The child of a location is within a base if the location is, or if it is the base itself. -/
theorem prefix_child {base l : Location} {n : String} :
    base <+: l ++ [n] ↔ base <+: l ∨ base = l ++ [n] := by
  constructor
  · intro h
    rcases List.prefix_concat_iff.mp h with h | h
    · exact .inr h
    · exact .inl h
  · rintro (h | rfl)
    · exact h.trans (List.prefix_append l [n])
    · exact List.prefix_refl _

/-- Every location lies within the one, within the other, or in neither. -/
theorem within_cases (l k a : Location) :
    (∃ r, a = l ++ r) ∨ (∃ r, a = k ++ r) ∨ ¬ l <+: a ∧ ¬ k <+: a := by
  by_cases hl : l <+: a
  · obtain ⟨r, rfl⟩ := hl
    exact .inl ⟨r, rfl⟩
  · by_cases hk : k <+: a
    · obtain ⟨r, rfl⟩ := hk
      exact .inr (.inl ⟨r, rfl⟩)
    · exact .inr (.inr ⟨hl, hk⟩)

/-- Whether two locations lie apart: neither is the other or lies below it. -/
structure Apart (l k : Location) : Prop where
  not_within : ¬ l <+: k
  not_within' : ¬ k <+: l

namespace Apart

variable {l k : Location}

theorem symm (h : Apart l k) : Apart k l := ⟨h.not_within', h.not_within⟩

/-- Locations that have a common descendant do not lie apart. -/
theorem not_within_of_within (h : Apart l k) {m : Location} (hl : l <+: m) : ¬ k <+: m := by
  intro hk
  rcases List.prefix_or_prefix_of_prefix hl hk with hp | hp
  · exact h.not_within hp
  · exact h.not_within' hp

/-- Nothing lies within two locations that lie apart. -/
theorem append_ne (h : Apart l k) (r r' : Location) : l ++ r ≠ k ++ r' := fun heq =>
  h.not_within_of_within (List.prefix_append l r) (heq ▸ List.prefix_append k r')

/-- What lies below locations that lie apart lies apart. -/
theorem append (h : Apart l k) (r r' : Location) : Apart (l ++ r) (k ++ r') := by
  constructor
  · rintro ⟨m, hm⟩
    rw [List.append_assoc] at hm
    exact h.append_ne _ _ hm
  · rintro ⟨m, hm⟩
    rw [List.append_assoc] at hm
    exact h.append_ne _ _ hm.symm

theorem ne_nil (h : Apart l k) : l ≠ [] := fun heq => h.not_within (heq ▸ List.nil_prefix)

theorem not_within_parent {p : Location} {n : String} (h : Apart l (p ++ [n])) : ¬ l <+: p :=
  fun hp => h.not_within (hp.trans (List.prefix_append p [n]))

end Apart

/-- Two children of one location lie apart. -/
theorem apart_child (l : Location) {n m : String} (h : n ≠ m) (r r' : Location) :
    Apart (l ++ n :: r) (l ++ m :: r') := by
  constructor <;> rintro ⟨t, ht⟩ <;> rw [List.append_assoc, List.append_cancel_left_eq] at ht
  · exact h (List.cons.inj ht).1
  · exact h (List.cons.inj ht).1.symm

end FileProvider.Location

namespace FileProvider.Catalogue

/-- What lies at a relative place below the source goes to the same place below the target. -/
@[simp]
theorem rebase_append (source target r : Location) :
    rebase source target (source ++ r) = target ++ r := by
  rw [rebase, Location.below?, List.isPrefixOf?_eq_some_iff_append_eq.mpr rfl]

/-- What does not lie below the source keeps its place. -/
theorem rebase_of_not_within {source l : Location} (target : Location) (h : ¬ source <+: l) :
    rebase source target l = l := by
  unfold rebase Location.below?
  cases hrest : source.isPrefixOf? l with
  | none => rfl
  | some r => exact absurd ⟨r, List.isPrefixOf?_eq_some_iff_append_eq.mp hrest⟩ h

end FileProvider.Catalogue
