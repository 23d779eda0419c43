import FileProvider.Host.Folder
import FileProvider.Proofs.Path.Apart
import FileProvider.Proofs.Path.Location

/-!
# One place, two readings

A path is read in two ways. In memory it is made absolute and its steps are cleaned, so that it becomes the
path of a location; in a folder of the host its steps are followed below the folder, one name being dropped
for each step up. `readings_agree` says that both lead to the same place, which no step can put outside: the
folder goes on with the names of the cleaned path, and a proper name that is joined leads one place further
down in both.
-/

set_option autoImplicit false

namespace FileProvider

namespace Location

variable {l : Location} {n : String}

theorem intercalate_append_singleton {α : Type} {sep x : List α} {xs : List (List α)} (h : xs ≠ []) :
    sep.intercalate (xs ++ [x]) = sep.intercalate xs ++ sep ++ x := by
  induction xs with
  | nil => exact absurd rfl h
  | cons first rest ih =>
    cases rest with
    | nil => simp
    | cons second rest =>
      have hrest := ih (List.cons_ne_nil _ _)
      simp only [List.cons_append, List.intercalate_cons_cons] at hrest ⊢
      rw [hrest]
      simp only [List.append_assoc]

/-- Unless it is that of the root, the path of a location ends as its last name does. -/
theorem getLast?_path_child (hn : Name.signs n ≠ []) :
    (path (l ++ [n])).signs.getLast? = (Name.signs n).getLast? := by
  obtain ⟨front, hfront⟩ : ∃ front, (path (l ++ [n])).signs = front ++ Name.signs n := by
    by_cases hl : l = []
    · exact ⟨[.char '/'], by simp [path, hl]⟩
    · refine ⟨.char '/' :: ([Sign.char '/'].intercalate (l.map Name.signs) ++ [.char '/']), ?_⟩
      rw [path, List.map_append, List.map_singleton,
        intercalate_append_singleton (by simpa using hl)]
      rfl
  rw [hfront, List.getLast?_append, Option.or_eq_left_of_isSome (List.getLast?_isSome.mpr hn)]

/-- Only the path of the root ends in a slash. -/
theorem getLast?_path_eq_slash (hsteps : l.Descends) (hspelled : ∀ n ∈ l, Path.Spelled n) :
    l.path.signs.getLast? = some (.char '/') ↔ l = [] := by
  constructor
  · intro hlast
    rcases eq_nil_or_append l with hl | ⟨p, n, rfl⟩
    · exact hl
    · have hmem : n ∈ p ++ [n] := List.mem_append_right p List.mem_cons_self
      have hsigns : Name.signs n ≠ [] := by
        intro hnil
        have hspelling := hspelled n hmem
        rw [Path.Spelled, hnil] at hspelling
        exact (hsteps n hmem).ne_empty hspelling.symm
      rw [getLast?_path_child hsigns] at hlast
      exact absurd (List.mem_of_getLast? hlast) (Name.slash_not_mem_signs n)
  · rintro rfl
    rfl

/-- The path of a child is that of its parent with the name joined to it. -/
theorem path_child (hsteps : l.Descends) (hspelled : ∀ n ∈ l, Path.Spelled n) (hn : IsName n) :
    path (l ++ [n]) = (path l).join n := by
  have hrelative : ¬ n.toList.head? = some '/' := fun hhead => hn.no_slash (List.mem_of_mem_head? hhead)
  have hsome : (path l).signs.isEmpty = false := rfl
  have hsigns : Name.signs n = Sign.ofText n := Name.signs_of_isText hn.isText
  rw [Path.join, if_neg hrelative, hsome, Bool.false_or]
  by_cases hl : l = []
  · subst hl
    have hroot : (path []).signs.getLast? = some (.char '/') := rfl
    rw [if_pos (decide_eq_true hroot), path, List.nil_append, List.map_singleton, List.intercalate_singleton, hsigns]
    rfl
  · have hlast : ¬ (path l).signs.getLast? = some (.char '/') := mt (getLast?_path_eq_slash hsteps hspelled).mp hl
    rw [if_neg (by simpa using hlast), path, List.map_append, List.map_singleton,
      intercalate_append_singleton (by simpa using hl), hsigns, path]
    simp only [List.append_assoc, List.cons_append, List.nil_append]

end Location

namespace Path

variable {l : Location}

/-- The path to which a path is cleaned in memory. -/
def cleaned (p : Path) : Path := p.location.path

/-- The path of a location starts at the root and takes a step for each of its names. -/
theorem components_path (hsteps : l.Descends) (hspelled : ∀ n ∈ l, Spelled n) :
    l.path.components = .root :: l.map .name := by
  have habsolute : l.path.isAbsolute = true := rfl
  have hcomponents := components_absolute l.path
  rw [absolute, if_pos habsolute] at hcomponents
  rw [hcomponents, Location.path, steps_slash, steps_intercalate hsteps hspelled]

/-- What stands behind a slash does not matter for the first piece. -/
theorem head?_pieces_append_slash (a b : List Sign) :
    (Text.pieces (.char '/') (a ++ .char '/' :: b)).head? = (Text.pieces (.char '/') a).head? := by
  rw [Text.pieces_append_sep, List.head?_append_of_ne_nil _ (Text.pieces_ne_nil _ a)]

/-- A proper name that is joined to a path stands alone, or behind a slash: the one that the path ends with, or
one more. -/
theorem join_cases (p : Path) {n : String} (h : IsName n) :
    (p.signs = [] ∧ (p.join n).signs = Sign.ofText n) ∨
    ∃ front, (p.signs = front ++ [.char '/'] ∨ p.signs = front ∧ front ≠ []) ∧
      (p.join n).signs = front ++ .char '/' :: Sign.ofText n := by
  have hrelative : ¬ n.toList.head? = some '/' := fun hhead => h.no_slash (List.mem_of_mem_head? hhead)
  rw [join, if_neg hrelative]
  by_cases hempty : p.signs = []
  · left
    refine ⟨hempty, ?_⟩
    rw [hempty]
    rfl
  · right
    rw [List.isEmpty_eq_false_iff.mpr hempty, Bool.false_or]
    by_cases hslash : p.signs.getLast? = some (.char '/')
    · obtain ⟨front, hfront⟩ := List.getLast?_eq_some_iff.mp hslash
      refine ⟨front, .inl hfront, ?_⟩
      rw [if_pos (decide_eq_true hslash), hfront, List.append_assoc, List.singleton_append]
    · exact ⟨p.signs, .inr ⟨rfl, hempty⟩, by rw [if_neg (by simpa using hslash)]⟩

/-- A name that is joined to a path leaves its first piece as it is, unless there is nothing before the name. -/
theorem start_join (p : Path) {n : String} (h : IsName n) : (p.join n).start = p.start := by
  rcases join_cases p h with ⟨hempty, hjoin⟩ | ⟨front, hsigns, hjoin⟩
  · have hslash : .char '/' ∉ Sign.ofText n := by simpa [Sign.ofText] using h.no_slash
    have hrelative : ¬ (Sign.ofText n).head? = some (.char '/') := fun hhead => hslash (List.mem_of_mem_head? hhead)
    have hpiece : ¬ (Text.pieces (.char '/') (Sign.ofText n)).head? = some [.char '.'] := by
      rw [Text.pieces_of_not_mem hslash, List.head?_cons]
      intro hdot
      refine h.ne_dot ?_
      rw [← Name.ofSigns_chars n.toList]
      exact congrArg Name.ofSigns (Option.some.inj hdot)
    simp [start, isAbsolute, hjoin, hempty, hrelative, hpiece, Text.pieces]
  · have hpieces : (Text.pieces (.char '/') (p.join n).signs).head? = (Text.pieces (.char '/') p.signs).head? := by
      rw [hjoin, head?_pieces_append_slash]
      rcases hsigns with hsigns | ⟨hsigns, -⟩
      · rw [hsigns, head?_pieces_append_slash]
      · rw [hsigns]
    have hhead : (p.join n).signs.head? = p.signs.head? := by
      rw [hjoin]
      rcases hsigns with hsigns | ⟨hsigns, hne⟩
      · rw [hsigns]
        cases front <;> rfl
      · rw [hsigns, List.head?_append_of_ne_nil _ hne]
    rw [start, start, isAbsolute, isAbsolute, hpieces, hhead]

/-- A proper name that is joined to a path is one step more. -/
theorem components_join (p : Path) {n : String} (h : IsName n) :
    (p.join n).components = p.components ++ [.name n] := by
  rw [components, start_join p h, steps_join p h, components, List.append_assoc]

/-- A cleaned path names what the path itself does. -/
theorem location_cleaned (p : Path) : p.cleaned.location = p.location :=
  location_path p.location_descends p.spelled_of_mem_location

/-- Paths that name the same location are cleaned to the same path, and no others are. -/
theorem cleaned_inj {p q : Path} : p.cleaned = q.cleaned ↔ p.location = q.location := by
  constructor
  · intro h
    rw [← p.location_cleaned, h, q.location_cleaned]
  · intro h
    rw [cleaned, h, cleaned]

/-- In a folder of the host a path leads to the same location as in memory, below the folder. -/
theorem locate_eq (base : Location) (p : Path) : Host.Folder.locate base p = base ++ p.location := by
  rw [Host.Folder.locate, confined_eq]

/-- Where a path leads in memory and where it leads in a folder of the host. The cleaned path starts at the root
and goes on with steps to children alone, which have proper names if the path is text; the folder goes on with the
same names, so that no path leads out of it, and tells the same paths apart. Cleaning a path again changes nothing,
and a proper name that is joined to a path is joined to where it leads, in either reading. -/
theorem readings_agree (p : Path) :
    (∃ names : Location, (∀ n ∈ names, IsChildStep n) ∧ (∀ s : String, p = ⟨s⟩ → ∀ n ∈ names, IsName n) ∧
      p.cleaned.components = .root :: names.map .name ∧
      ∀ base, Host.Folder.locate base p = base ++ names) ∧
    (∀ base, base <+: Host.Folder.locate base p) ∧
    (∀ base q, Host.Folder.locate base p = Host.Folder.locate base q ↔ p.cleaned = q.cleaned) ∧
    p.cleaned.cleaned = p.cleaned ∧
    ∀ n, IsName n → (p.join n).cleaned = p.cleaned.join n ∧
      ∀ base, Host.Folder.locate base (p.join n) = Host.Folder.locate base p ++ [n] := by
  refine ⟨⟨p.location, p.location_descends, ?_, components_path p.location_descends p.spelled_of_mem_location,
      fun base => locate_eq base p⟩,
    fun base => ?_, fun base q => ?_, cleaned_inj.mpr p.location_cleaned, fun n hn => ⟨?_, fun base => ?_⟩⟩
  · rintro s rfl
    exact location_proper s
  · rw [locate_eq]
    exact List.prefix_append base p.location
  · rw [locate_eq, locate_eq, List.append_cancel_left_eq, cleaned_inj]
  · rw [cleaned, location_join p hn, Location.path_child p.location_descends p.spelled_of_mem_location hn, cleaned]
  · rw [locate_eq, locate_eq, location_join p hn, List.append_assoc]

/-- A path that climbs above the root on its way, and a name joined to it. -/
theorem readings_agree_above :
    (Path.mk "../a//./../b/").cleaned = ⟨"/b"⟩ ∧ IsName "c" ∧
      ((Path.mk "../a//./../b/").join "c").cleaned = (Path.mk "/b").join "c" ∧
      Host.Folder.locate ["srv"] ((Path.mk "../a//./../b/").join "c") = ["srv", "b", "c"] := by
  have hclean : (Path.mk "../a//./../b/").cleaned = ⟨"/b"⟩ := by decide +kernel
  have hplace : Host.Folder.locate ["srv"] ⟨"../a//./../b/"⟩ = ["srv", "b"] := by decide +kernel
  have hname : IsName "c" := by decide
  obtain ⟨hjoin, hlocate⟩ := (readings_agree ⟨"../a//./../b/"⟩).2.2.2.2 "c" hname
  rw [hclean] at hjoin
  refine ⟨hclean, hname, hjoin, ?_⟩
  rw [hlocate, hplace]
  rfl

end Path

end FileProvider
