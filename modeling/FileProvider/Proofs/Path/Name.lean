import FileProvider.Path.Name
import FileProvider.Proofs.Text.Pieces

/-!
# What names stand for

Reading a name as signs again undoes its spelling, so that different names in a path stay different; a name
that is text stands for itself. Of the steps between two slashes those that are neither empty nor dots lead
to a child, and such a child has a proper name if the step is text.
-/

set_option autoImplicit false

namespace FileProvider

namespace Name

variable {n : String}

theorem isText_iff : isText n = true ↔ '/' ∉ n.toList := by
  simp [isText]

/-- Characters are spelled as they are. -/
theorem ofSigns_chars (s : List Char) : ofSigns (s.map .char) = s := by
  induction s with
  | nil => rfl
  | cons c s ih => exact congrArg (c :: ·) ih

theorem byteOfChar_charOfByte (b : UInt8) : byteOfChar (charOfByte b) = b := by
  have hb : b.toNat < 256 := b.toNat_lt
  have hvalid : (b.toNat + 256).isValidChar := .inl (by omega)
  have hchar : (charOfByte b).toNat = b.toNat + 256 := by
    rw [charOfByte, Char.ofNat, dif_pos hvalid]
    rfl
  rw [byteOfChar, hchar, Nat.add_sub_cancel, UInt8.ofNat_toNat]

theorem charOfByte_ne_slash (b : UInt8) : charOfByte b ≠ '/' := by
  intro h
  have hb : b.toNat < 256 := b.toNat_lt
  have hvalid : (b.toNat + 256).isValidChar := .inl (by omega)
  have hchar := congrArg Char.toNat h
  rw [charOfByte, Char.ofNat, dif_pos hvalid] at hchar
  change b.toNat + 256 = 47 at hchar
  omega

theorem signsOfPieces_cons (c : Char) (p : List Char) (ps : List (List Char)) :
    signsOfPieces ((c :: p) :: ps) = .char c :: signsOfPieces (p :: ps) := by
  cases ps <;> rfl

/-- The signs of a name are those that it spells. -/
theorem signs_ofSigns {piece : List Sign} (h : .char '/' ∉ piece) :
    signs (String.ofList (ofSigns piece)) = piece := by
  rw [signs, String.toList_ofList]
  induction piece with
  | nil => rfl
  | cons sign rest ih =>
    obtain ⟨hsign, hrest⟩ := not_or.mp (mt List.mem_cons.mpr h)
    cases sign with
    | char c =>
      have hc : c ≠ '/' := fun heq => hsign (heq ▸ rfl)
      obtain ⟨p, ps, hp⟩ := List.exists_cons_of_ne_nil (Text.pieces_ne_nil '/' (ofSigns rest))
      have hspelled : ofSigns (.char c :: rest) = c :: ofSigns rest := rfl
      rw [hspelled, Text.pieces_cons hc hp, signsOfPieces_cons, ← hp, ih hrest]
    | stray run =>
      have hrun : '/' ∉ run.map charOfByte := fun hmem => by
        obtain ⟨b, -, hb⟩ := List.mem_map.mp hmem
        exact charOfByte_ne_slash b hb
      have hbytes : (run.map charOfByte).map byteOfChar = run := by
        rw [List.map_map, show byteOfChar ∘ charOfByte = id from funext byteOfChar_charOfByte, List.map_id]
      have hspelled : ofSigns (.stray run :: rest) = '/' :: (run.map charOfByte ++ '/' :: ofSigns rest) := by
        simp [ofSigns, spell]
      rw [hspelled, Text.pieces_cons_sep, Text.pieces_append_sep, Text.pieces_of_not_mem hrun, List.singleton_append,
        signsOfPieces, hbytes, ih hrest]
      rfl

/-- A name that is text stands for its characters. -/
theorem signs_of_isText (h : isText n = true) : signs n = n.toList.map .char := by
  rw [signs, Text.pieces_of_not_mem (isText_iff.mp h), signsOfPieces]

/-- No sign of a name is a slash. -/
theorem slash_not_mem_signs (n : String) : .char '/' ∉ signs n := by
  have hall : ∀ ps : List (List Char), (∀ p ∈ ps, '/' ∉ p) → .char '/' ∉ signsOfPieces ps := by
    intro ps
    induction ps using signsOfPieces.induct with
    | case1 => exact fun _ => List.not_mem_nil
    | case2 text =>
      intro h hmem
      obtain ⟨c, hc, hslash⟩ := List.mem_map.mp hmem
      cases hslash
      exact h text List.mem_cons_self hc
    | case3 text run rest ih =>
      intro h hmem
      rcases List.mem_append.mp hmem with htext | hrest
      · obtain ⟨c, hc, hslash⟩ := List.mem_map.mp htext
        cases hslash
        exact h text List.mem_cons_self hc
      · rcases List.mem_cons.mp hrest with hrun | hrest
        · cases hrun
        · exact ih (fun p hp => h p (List.mem_cons_of_mem _ (List.mem_cons_of_mem _ hp))) hrest
  exact hall _ fun p => Text.not_mem_of_mem_pieces

end Name

/-- Whether a step is to a child: it is none of those that stay or go up. -/
structure IsChildStep (step : String) : Prop where
  ne_dot : step ≠ "."
  ne_empty : step ≠ ""
  ne_dots : step ≠ ".."

/-- Whether a text can be the name of an entry: it is not empty, holds no slash, and is neither of
the two steps that are not names. -/
structure IsName (n : String) : Prop where
  ne_empty : n.toList ≠ []
  ne_dot : n.toList ≠ ['.']
  ne_dots : n.toList ≠ ['.', '.']
  no_slash : '/' ∉ n.toList

instance (n : String) : Decidable (IsName n) :=
  decidable_of_iff (n.toList ≠ [] ∧ n.toList ≠ ['.'] ∧ n.toList ≠ ['.', '.'] ∧ '/' ∉ n.toList)
    ⟨fun ⟨h₁, h₂, h₃, h₄⟩ => ⟨h₁, h₂, h₃, h₄⟩, fun h => ⟨h.ne_empty, h.ne_dot, h.ne_dots, h.no_slash⟩⟩

variable {n : String}

theorem IsName.isText (hn : IsName n) : Name.isText n = true := Name.isText_iff.mpr hn.no_slash

theorem IsName.isChildStep (hn : IsName n) : IsChildStep n where
  ne_dot heq := hn.ne_dot (by rw [heq]; rfl)
  ne_empty heq := hn.ne_empty (by rw [heq]; rfl)
  ne_dots heq := hn.ne_dots (by rw [heq]; rfl)

/-- A step to a child is to one of a proper name if it is text. -/
theorem IsChildStep.isName (hstep : IsChildStep n) (htext : Name.isText n = true) : IsName n where
  ne_empty heq := hstep.ne_empty (String.toList_inj.mp heq)
  ne_dot heq := hstep.ne_dot (String.toList_inj.mp heq)
  ne_dots heq := hstep.ne_dots (String.toList_inj.mp heq)
  no_slash := Name.isText_iff.mp htext

end FileProvider
