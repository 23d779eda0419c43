import FileProvider.Proofs.Text.Segments
import Mathlib.Data.List.Infix

/-!
# Searching by bytes

The segment that is removed from a text can be looked for in its bytes: find the slash and the name as bytes
from an offset on, look at the byte behind them, and if they do not end there go on one byte behind the place
where they were found. The search ends, it finds the segment that a scan of the characters finds, and it cuts
the text nowhere inside of a character, because the byte of a slash stands for nothing but a slash.
-/

set_option autoImplicit false

namespace FileProvider.Text

variable {name path : List Char} {s t pre post : List UInt8} {k start : Nat}

/-! ## The search -/

/-- The byte of a slash. -/
def slashByte : UInt8 := 0x2f

/-- The offset at which some bytes stand for the first time. -/
def find? (needle s : List UInt8) : Option Nat := s.tails.findIdx? needle.isPrefixOf

theorem find?_eq_some (h : find? t s = some k) : t <+: s.drop k ∧ ∀ j < k, ¬ t <+: s.drop j := by
  obtain ⟨_, hfound, hbefore⟩ := List.findIdx?_eq_some_iff_getElem.mp h
  refine ⟨by simpa using hfound, fun j hj => ?_⟩
  simpa using hbefore j hj

theorem find?_eq_none (h : find? t s = none) (k : Nat) : ¬ t <+: s.drop k := by
  have hnot := List.findIdx?_eq_none_iff.mp h (s.drop k) ((List.mem_tails _ _).mpr (List.drop_suffix k s))
  rwa [← List.isPrefixOf_iff_prefix, Bool.not_eq_true]

/-- Removes a slash and a name, found at `start` or behind, that end where a segment can end. -/
def dropFrom (s t : List UInt8) (start : Nat) : List UInt8 :=
  match h : find? (slashByte :: t) (s.drop start) with
  | none => s
  | some place =>
    let first := start + place
    let last := first + (t.length + 1)
    if last = s.length ∨ s[last]? = some slashByte then s.take first ++ s.drop last
    else dropFrom s t (first + 1)
termination_by s.length - start
decreasing_by
  have hlength := (find?_eq_some h).1.length_le
  simp only [List.length_cons, List.length_drop] at hlength
  omega

/-- Whether a slash and a name stand at an offset and end there where a segment can end. -/
def StandsAt (s t : List UInt8) (k : Nat) : Prop :=
  slashByte :: t <+: s.drop k ∧ (k + (t.length + 1) = s.length ∨ s[k + (t.length + 1)]? = some slashByte)

/-- The search removes what stands at the first offset, or nothing if it stands nowhere. -/
theorem dropFrom_cases (s t : List UInt8) (start : Nat) (h : ∀ k < start, ¬ StandsAt s t k) :
    (∃ k, StandsAt s t k ∧ (∀ j, StandsAt s t j → k ≤ j) ∧
        dropFrom s t start = s.take k ++ s.drop (k + (t.length + 1))) ∨
      (∀ k, ¬ StandsAt s t k) ∧ dropFrom s t start = s := by
  fun_induction dropFrom s t start with
  | case1 start hnone =>
    refine .inr ⟨fun k hk => ?_, rfl⟩
    have hstart : start ≤ k := Nat.le_of_not_lt fun hlt => h k hlt hk
    refine find?_eq_none hnone (k - start) ?_
    rw [List.drop_drop, Nat.add_sub_cancel' hstart]
    exact hk.1
  | case2 start place hplace first last hend =>
    obtain ⟨hfound, hbefore⟩ := find?_eq_some hplace
    rw [List.drop_drop] at hfound
    refine .inl ⟨first, ⟨hfound, hend⟩, fun j hj => Nat.le_of_not_lt fun hlt => ?_, rfl⟩
    have hstart : start ≤ j := Nat.le_of_not_lt fun hlt => h j hlt hj
    refine hbefore (j - start) (by omega) ?_
    rw [List.drop_drop, Nat.add_sub_cancel' hstart]
    exact hj.1
  | case3 start place hplace first last hend ih =>
    obtain ⟨-, hbefore⟩ := find?_eq_some hplace
    refine ih fun k hk hstands => ?_
    have hstart : start ≤ k := Nat.le_of_not_lt fun hlt => h k hlt hstands
    rcases Nat.lt_or_ge k first with hlt | hge
    · refine hbefore (k - start) (by omega) ?_
      rw [List.drop_drop, Nat.add_sub_cancel' hstart]
      exact hstands.1
    · obtain rfl : k = first := by omega
      exact hend hstands.2

/-! ## Characters and their bytes -/

/-- The bytes of a text. -/
def bytes (path : List Char) : List UInt8 := path.flatMap String.utf8EncodeChar

@[simp] theorem bytes_append (p q : List Char) : bytes (p ++ q) = bytes p ++ bytes q := List.flatMap_append

@[simp] theorem bytes_cons_slash (p : List Char) : bytes ('/' :: p) = slashByte :: bytes p := rfl

theorem bytes_injective {p q : List Char} (h : bytes p = bytes q) : p = q := by
  have hencode : p.utf8Encode = q.utf8Encode := congrArg List.toByteArray h
  have hstring : String.ofList p = String.ofList q := String.toByteArray_inj.mp hencode
  simpa using congrArg String.toList hstring

theorem slashByte_ne {n : Nat} (h : 0x80 ≤ n) (hn : n < 0x100) : slashByte ≠ UInt8.ofNat n := by
  intro heq
  have hvalue := congrArg UInt8.toNat heq
  rw [UInt8.toNat_ofNat', Nat.mod_eq_of_lt hn] at hvalue
  exact absurd (hvalue ▸ h) (by decide)

/-- The byte of a slash stands for a slash, and for no part of another character. -/
theorem eq_slash_of_mem {c : Char} (h : slashByte ∈ String.utf8EncodeChar c) : c = '/' := by
  unfold String.utf8EncodeChar at h
  dsimp only at h
  split at h
  · next hsmall =>
    have hvalue := congrArg UInt8.toNat (List.mem_singleton.mp h)
    rw [UInt8.toNat_ofNat', Nat.mod_eq_of_lt (by omega)] at hvalue
    exact Char.ext (UInt32.toNat_inj.mp hvalue.symm)
  · split at h
    · simp only [List.mem_cons, List.not_mem_nil, or_false] at h
      rcases h with h | h <;> exact absurd h (slashByte_ne (by omega) (by omega))
    · split at h
      · simp only [List.mem_cons, List.not_mem_nil, or_false] at h
        rcases h with h | h | h <;> exact absurd h (slashByte_ne (by omega) (by omega))
      · simp only [List.mem_cons, List.not_mem_nil, or_false] at h
        rcases h with h | h | h | h <;> exact absurd h (slashByte_ne (by omega) (by omega))

/-- Where the byte of a slash stands among the bytes of a text, a slash stands in the text. -/
theorem exists_slash (h : bytes path = pre ++ slashByte :: post) :
    ∃ before after, path = before ++ '/' :: after ∧ bytes before = pre ∧ bytes after = post := by
  induction path generalizing pre with
  | nil => simp [bytes] at h
  | cons c path ih =>
    by_cases hc : c = '/'
    · subst hc
      rw [bytes_cons_slash] at h
      cases pre with
      | nil => exact ⟨[], path, rfl, rfl, (List.cons.inj h).2⟩
      | cons b pre =>
        obtain ⟨rfl, hrest⟩ := List.cons.inj h
        obtain ⟨before, after, rfl, rfl, rfl⟩ := ih hrest
        exact ⟨'/' :: before, after, rfl, rfl, rfl⟩
    · -- The byte of the slash is none of those of the first character.
      have hcons : bytes (c :: path) = String.utf8EncodeChar c ++ bytes path := List.flatMap_cons
      rw [hcons] at h
      rcases List.append_eq_append_iff.mp h with ⟨w, hw, hrest⟩ | ⟨w, hw, hrest⟩
      · obtain ⟨before, after, rfl, rfl, rfl⟩ := ih hrest
        exact ⟨c :: before, after, rfl, hw.symm, rfl⟩
      · cases w with
        | nil =>
          have hstart : bytes path = [] ++ slashByte :: post := hrest.symm
          obtain ⟨before, after, rfl, hbefore, rfl⟩ := ih hstart
          refine ⟨c :: before, after, rfl, ?_, rfl⟩
          rw [List.append_nil] at hw
          rw [← hw]
          exact (congrArg (String.utf8EncodeChar c ++ ·) hbefore).trans (List.append_nil _)
        | cons b w =>
          obtain ⟨rfl, -⟩ := List.cons.inj hrest
          exact absurd (eq_slash_of_mem (hw ▸ List.mem_append_right _ List.mem_cons_self)) hc

/-- What follows the slash and the name where they stand. -/
theorem StandsAt.split (h : StandsAt s t k) :
    ∃ post, s = s.take k ++ slashByte :: (t ++ post) ∧ (s.take k).length = k ∧
      (post = [] ∨ post.head? = some slashByte) := by
  obtain ⟨⟨post, hpost⟩, hend⟩ := h
  have hlength := congrArg List.length hpost
  simp only [List.length_append, List.length_cons, List.length_drop] at hlength
  have hbehind : post = s.drop (k + (t.length + 1)) := by
    rw [← List.drop_drop, ← hpost]
    exact (List.drop_left' List.length_cons).symm
  refine ⟨post, by rw [← List.cons_append, hpost, List.take_append_drop], ?_, ?_⟩
  · exact List.length_take_of_le (by omega)
  · rw [hbehind, List.head?_drop, List.drop_eq_nil_iff]
    exact hend.imp (fun heq => Nat.le_of_eq heq.symm) id

/-- A segment stands in the bytes of a text exactly where it stands in the text. -/
theorem standsAt_iff : StandsAt (bytes path) (bytes name) k ↔
    ∃ before after, SegmentAt name path before after ∧ (bytes before).length = k := by
  constructor
  · intro h
    obtain ⟨post, hsplit, hk, hend⟩ := h.split
    obtain ⟨before, rest, rfl, hbefore, hrest⟩ := exists_slash hsplit
    rw [← hbefore] at hk
    rcases hend with rfl | hend
    · rw [List.append_nil] at hrest
      obtain rfl := bytes_injective hrest
      exact ⟨before, [], ⟨by rw [List.append_nil], .inl rfl⟩, hk⟩
    · obtain ⟨post, rfl⟩ := List.head?_eq_some_iff.mp hend
      obtain ⟨front, after, rfl, hfront, -⟩ := exists_slash hrest
      obtain rfl := bytes_injective hfront
      exact ⟨before, '/' :: after, ⟨rfl, .inr rfl⟩, hk⟩
  · rintro ⟨before, after, ⟨rfl, hend⟩, rfl⟩
    rw [bytes_append, List.cons_append, bytes_cons_slash, bytes_append]
    refine ⟨by rw [List.drop_left]; exact List.prefix_append _ (bytes after), ?_⟩
    rcases hend with rfl | hend
    · exact .inl (by simp [bytes])
    · obtain ⟨after, rfl⟩ := List.head?_eq_some_iff.mp hend
      refine .inr ?_
      rw [List.getElem?_append_right (Nat.le_add_right _ _), Nat.add_sub_cancel_left, List.getElem?_cons_succ,
        List.getElem?_append_right (Nat.le_refl _), Nat.sub_self]
      rfl

/-- The search by bytes removes the segment that the scan of the characters removes. -/
theorem dropFrom_bytes (name path : List Char) :
    dropFrom (bytes path) (bytes name) 0 = bytes (dropSegment ('/' :: name) path) := by
  rcases dropFrom_cases (bytes path) (bytes name) 0 (fun k hk => absurd hk (Nat.not_lt_zero k)) with
    ⟨k, hstands, hfirst, hdrop⟩ | ⟨hnone, hsame⟩
  · rcases dropSegment_lessFirst name path with ⟨before, after, hat, hleast, hleft⟩ | ⟨hnot, -⟩
    · -- Both places are the first ones, one by characters and one by bytes.
      obtain ⟨front, rest, hfront, rfl⟩ := standsAt_iff.mp hstands
      have hle := hfirst _ (standsAt_iff.mpr ⟨before, after, hat, rfl⟩)
      obtain ⟨w, rfl⟩ := List.prefix_of_prefix_length_le (hat.1 ▸ List.prefix_append before _)
        (hfront.1 ▸ List.prefix_append front _) (hleast front rest hfront)
      rw [bytes_append, List.length_append] at hle
      have hw : w = [] := bytes_injective (List.eq_nil_of_length_eq_zero (by omega))
      subst hw
      rw [List.append_nil] at hdrop
      have hskip : (slashByte :: bytes name ++ bytes after).drop ((bytes name).length + 1) = bytes after :=
        List.drop_left' List.length_cons
      rw [hdrop, hleft, hat.1, bytes_append, List.cons_append, bytes_cons_slash, bytes_append, List.take_left,
        ← List.drop_drop, List.drop_left, ← List.cons_append, hskip, bytes_append]
    · obtain ⟨before, after, hat, -⟩ := standsAt_iff.mp hstands
      exact absurd hat (hnot before after)
  · rcases dropSegment_lessFirst name path with ⟨before, after, hat, -⟩ | ⟨-, hleft⟩
    · exact absurd (standsAt_iff.mpr ⟨before, after, hat, rfl⟩) (hnone _)
    · rw [hsame, hleft]

end FileProvider.Text
