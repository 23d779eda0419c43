import FileProvider.Path.Location
import FileProvider.Proofs.Path.Name

/-!
# What paths name

A path names a location by the pieces between its slashes alone: whether it is absolute, and how
often it repeats a slash or a dot, does not matter. Four facts follow. The names of a location lead to
children, and are proper names where the path is text; a path with a proper name joined to it names the
child of that name; and the path of a location names it again.
-/

set_option autoImplicit false

namespace FileProvider

/-- Whether every step of a location is a proper name; such locations are the absolute paths in text from
which nothing is left to clean. -/
def Location.Proper (l : Location) : Prop := ∀ n ∈ l, IsName n

/-- Whether every step of a location leads to a child. -/
def Location.Descends (l : Location) : Prop := ∀ n ∈ l, IsChildStep n

namespace Location

instance (l : Location) : Decidable l.Proper := inferInstanceAs (Decidable (∀ n ∈ l, IsName n))

theorem proper_nil : Location.Proper [] := fun _ h => absurd h List.not_mem_nil

theorem proper_append {l k : Location} : Location.Proper (l ++ k) ↔ l.Proper ∧ k.Proper :=
  List.forall_mem_append

theorem proper_child {l : Location} {n : String} :
    Location.Proper (l ++ [n]) ↔ l.Proper ∧ IsName n := by
  rw [proper_append]
  exact and_congr_right fun _ => List.forall_mem_singleton

theorem Proper.descends {l : Location} (h : l.Proper) : l.Descends := fun n hn => (h n hn).isChildStep

theorem descends_nil : Location.Descends [] := fun _ h => absurd h List.not_mem_nil

theorem descends_append {l k : Location} : Location.Descends (l ++ k) ↔ l.Descends ∧ k.Descends :=
  List.forall_mem_append

theorem descends_child {l : Location} {n : String} :
    Location.Descends (l ++ [n]) ↔ l.Descends ∧ IsChildStep n := by
  rw [descends_append]
  exact and_congr_right fun _ => List.forall_mem_singleton

/-- The written form of a location of proper names is a slash and its names with slashes between them. -/
theorem path_eq {l : Location} (h : l.Proper) : l.path = ⟨Sign.ofText ("/" ++ "/".intercalate l)⟩ := by
  have hsigns : l.map Name.signs = (l.map String.toList).map (List.map .char) := by
    rw [List.map_map]
    exact List.map_congr_left fun n hn => Name.signs_of_isText (h n hn).isText
  have hjoin : ∀ parts : List (List Char), [Sign.char '/'].intercalate (parts.map (List.map .char))
      = (['/'].intercalate parts).map .char := by
    intro parts
    induction parts with
    | nil => rfl
    | cons part rest ih =>
      cases rest with
      | nil => simp
      | cons next rest =>
        rw [List.map_cons] at ih
        simp [ih]
  rw [path, hsigns, hjoin, Sign.ofText, String.toList_append, String.toList_intercalate]
  rfl

end Location

namespace Path

/-- A text is shown as it is. -/
theorem text_mk (s : String) : (Path.mk s).text = s := by
  have hshown : Sign.shown ∘ Sign.char = id := rfl
  rw [text, Sign.ofText, List.map_map, hshown, List.map_id, String.ofList_toList]

/-- A path that a text writes is that text. -/
theorem text?_ofText (s : String) : (ofText s).text? = some s := by
  have hchars : ∀ chars : List Char, (chars.map .char).mapM Sign.char? = some chars := by
    intro chars
    induction chars with
    | nil => rfl
    | cons c rest ih => rw [List.map_cons, List.mapM_cons, ih]; rfl
  rw [text?, ofText, Sign.ofText, hchars, Option.map_some, String.ofList_toList]

/-- A path that is a text is the one which that text writes. -/
theorem ofText_of_text? {p : Path} {s : String} (h : p.text? = some s) : ofText s = p := by
  obtain ⟨signs⟩ := p
  obtain ⟨chars, hchars, rfl⟩ := Option.map_eq_some_iff.mp h
  have hsigns : chars.map .char = signs := by
    clear h
    dsimp only at hchars
    induction signs generalizing chars with
    | nil =>
      cases hchars
      rfl
    | cons sign rest ih =>
      rw [List.mapM_cons] at hchars
      obtain ⟨c, hc, hrest⟩ := Option.bind_eq_some_iff.mp hchars
      obtain ⟨more, hmore, heq⟩ := Option.bind_eq_some_iff.mp hrest
      cases heq
      cases sign with
      | stray run => cases hc
      | char c' =>
        cases hc
        rw [List.map_cons, ih _ hmore]
  rw [ofText, Sign.ofText, String.toList_ofList, hsigns]

/-- A path has a text if there is anything in it. -/
theorem text_eq_empty_iff {p : Path} : p.text = "" ↔ p.signs = [] := by
  rw [text, ← String.toList_eq_nil_iff, String.toList_ofList, List.map_eq_nil_iff]

end Path

namespace Location

theorem text_ne_empty (l : Location) : l.text ≠ "" :=
  mt Path.text_eq_empty_iff.mp (List.cons_ne_nil _ _)

end Location

namespace Path

/-! ## From pieces to steps -/

/-- A proper name means the step to the child of that name. -/
theorem ofPiece?_name {n : String} (h : IsName n) :
    Component.ofPiece? n.toList = some (.name n) := by
  simp only [Component.ofPiece?, h.ne_empty, h.ne_dot, h.ne_dots, decide_false, Bool.or_self,
    Bool.false_eq_true, ↓reduceIte, String.ofList_toList]

/-- A piece means a step to the parent or to the child that it names. -/
theorem eq_of_ofPiece? {piece : List Char} {c : Component} (h : Component.ofPiece? piece = some c) :
    c = .up ∨ ∃ n, c = .name n ∧ IsChildStep n ∧ n = String.ofList piece := by
  unfold Component.ofPiece? at h
  split at h
  · cases h
  · next hempty =>
    split at h
    · exact .inl (Option.some.inj h).symm
    · next hdots =>
      simp only [Bool.or_eq_true, decide_eq_true_eq, not_or] at hempty
      have hne : ∀ s : String, piece ≠ s.toList → String.ofList piece ≠ s := fun s hs heq =>
        hs (by rw [← heq, String.toList_ofList])
      exact .inr ⟨_, (Option.some.inj h).symm, ⟨hne _ hempty.2, hne _ hempty.1, hne _ hdots⟩, rfl⟩

/-- Every step is to the parent or to a child, which is named by what stands between two slashes. -/
theorem eq_of_mem_steps {s : List Sign} {c : Component} (h : c ∈ steps s) :
    c = .up ∨ ∃ n, c = .name n ∧ IsChildStep n ∧
      ∃ piece, .char '/' ∉ piece ∧ n = String.ofList (Name.ofSigns piece) := by
  obtain ⟨piece, hmem, hpiece⟩ := List.mem_filterMap.mp h
  rcases eq_of_ofPiece? hpiece with hup | ⟨n, hn, hstep, hname⟩
  · exact .inl hup
  · exact .inr ⟨n, hn, hstep, piece, Text.not_mem_of_mem_pieces hmem, hname⟩

theorem steps_append_slash (a b : List Sign) : steps (a ++ .char '/' :: b) = steps a ++ steps b := by
  rw [steps, Text.pieces_append_sep, List.filterMap_append, steps, steps]

theorem steps_nil : steps [] = [] := rfl

theorem steps_slash (s : List Sign) : steps (.char '/' :: s) = steps s := steps_append_slash [] s

/-- What is without a slash means one step at most. -/
theorem steps_of_not_mem {s : List Sign} (h : .char '/' ∉ s) :
    steps s = (Component.ofPiece? (Name.ofSigns s)).toList := by
  rw [steps, Text.pieces_of_not_mem h]
  cases hpiece : Component.ofPiece? (Name.ofSigns s) <;> simp [hpiece]

/-- The steps that a text means. -/
def textSteps (s : List Char) : List Component := steps (s.map .char)

/-- The steps of a text, cut at its slashes. -/
theorem textSteps_eq (s : List Char) : textSteps s = (Text.pieces '/' s).filterMap Component.ofPiece? := by
  have hinj : ∀ c, Sign.char c = Sign.char '/' → c = '/' := fun c => Sign.char.inj
  have hspelled : (fun piece => Component.ofPiece? (Name.ofSigns piece)) ∘ List.map Sign.char
      = Component.ofPiece? := funext fun piece => congrArg Component.ofPiece? (Name.ofSigns_chars piece)
  rw [textSteps, steps, Text.pieces_map hinj, List.filterMap_map, hspelled]

theorem textSteps_append_slash (a b : List Char) :
    textSteps (a ++ '/' :: b) = textSteps a ++ textSteps b := by
  rw [textSteps, List.map_append, List.map_cons, steps_append_slash, textSteps, textSteps]

theorem textSteps_nil : textSteps [] = [] := rfl

theorem textSteps_name {n : String} (h : IsName n) : textSteps n.toList = [.name n] := by
  rw [textSteps_eq, Text.pieces_of_not_mem h.no_slash, List.filterMap_cons, ofPiece?_name h]
  rfl

theorem steps_name {n : String} (h : IsName n) : steps (Sign.ofText n) = [.name n] := textSteps_name h

/-- Every step of a text is to the parent or to a child of a proper name. -/
theorem eq_of_mem_textSteps {s : List Char} {c : Component} (h : c ∈ textSteps s) :
    c = .up ∨ ∃ n, c = .name n ∧ IsName n := by
  rw [textSteps_eq] at h
  obtain ⟨piece, hmem, hpiece⟩ := List.mem_filterMap.mp h
  rcases eq_of_ofPiece? hpiece with hup | ⟨n, hn, hstep, rfl⟩
  · exact .inl hup
  · refine .inr ⟨_, hn, hstep.isName (Name.isText_iff.mpr ?_)⟩
    rw [String.toList_ofList]
    exact Text.not_mem_of_mem_pieces hmem

/-! ## From steps to locations -/

/-- Following steps leads by names that were there before or that the steps name. -/
theorem foldl_confinedStep_names {P : String → Prop} {cs : List Component} {names : List String}
    (hcs : ∀ n, Component.name n ∈ cs → P n) (hnames : ∀ n ∈ names, P n) :
    ∀ n ∈ cs.foldl confinedStep names, P n := by
  induction cs generalizing names with
  | nil => exact hnames
  | cons c cs ih =>
    refine ih (fun n hn => hcs n (List.mem_cons_of_mem _ hn)) ?_
    cases c with
    | root => exact hnames
    | here => exact hnames
    | up => exact fun m hm => hnames m (List.mem_of_mem_drop hm)
    | name n => exact List.forall_mem_cons.mpr ⟨hcs n List.mem_cons_self, hnames⟩

/-- Cleaning steps below the root follows them and keeps the root in front. -/
theorem foldl_cleanStep (cs : List Component) (names : List String)
    (hcs : ∀ c ∈ cs, c = .up ∨ ∃ n, c = .name n) :
    cs.foldl cleanStep (names.map .name ++ [.root])
      = (cs.foldl confinedStep names).map .name ++ [.root] := by
  induction cs generalizing names with
  | nil => rfl
  | cons c cs ih =>
    have hrest : ∀ d ∈ cs, d = .up ∨ ∃ n, d = .name n := fun d hd => hcs d (List.mem_cons_of_mem _ hd)
    have hstep : cleanStep (names.map .name ++ [.root]) c
        = (confinedStep names c).map .name ++ [.root] := by
      rcases hcs c List.mem_cons_self with rfl | ⟨n, rfl⟩
      · cases names <;> rfl
      · rfl
    rw [List.foldl_cons, List.foldl_cons, hstep, ih _ hrest]

/-- The names in a list of names, reversed and with the root behind them. -/
theorem filterMap_name? (names : List String) :
    (names.map Component.name ++ [Component.root]).reverse.filterMap Component.name? = names.reverse := by
  have hname : Component.name? ∘ Component.name = some := rfl
  rw [List.reverse_append, ← List.map_reverse, List.filterMap_append, List.filterMap_map, hname,
    List.filterMap_some]
  rfl

/-- The components of the absolute form of a path are the root and then its steps. -/
theorem components_absolute (p : Path) : p.absolute.components = .root :: steps p.signs := by
  unfold absolute
  split
  · next habs => rw [components, start, if_pos habs]; rfl
  · have habs : (Path.mk (.char '/' :: p.signs)).isAbsolute = true := rfl
    rw [components, start, if_pos habs, steps_slash]
    rfl

/-- A path names the location to which its steps lead from the root. -/
theorem location_eq (p : Path) :
    p.location = ((steps p.signs).foldl confinedStep []).reverse := by
  have hfold := foldl_cleanStep (steps p.signs) [] fun c hc =>
    (eq_of_mem_steps hc).imp_right fun ⟨n, hn, _⟩ => ⟨n, hn⟩
  rw [location, components_absolute, clean, List.foldl_cons]
  change ((steps p.signs).foldl cleanStep (List.map .name [] ++ [.root])).reverse.filterMap _ = _
  rw [hfold, filterMap_name?]

/-- A path that cannot leave a root names the same location below it as in a tree of its own. -/
theorem confined_eq (p : Path) : p.confined = p.location := by
  have hstart : p.start.foldl confinedStep [] = [] := by
    unfold start
    split
    · rfl
    · split <;> rfl
  rw [location_eq, confined, components, List.foldl_append, hstart]

/-- What holds of every name among the steps of a path holds of every name of its location. -/
theorem forall_mem_location {P : String → Prop} (p : Path) (h : ∀ n, .name n ∈ steps p.signs → P n) :
    ∀ n ∈ p.location, P n := by
  intro n hn
  rw [location_eq, List.mem_reverse] at hn
  exact foldl_confinedStep_names h (fun _ h => absurd h List.not_mem_nil) n hn

/-! ## The four facts -/

theorem location_descends (p : Path) : p.location.Descends :=
  p.forall_mem_location fun n hn => by
    rcases eq_of_mem_steps hn with hup | ⟨m, hm, hstep, -⟩
    · cases hup
    · cases hm
      exact hstep

theorem location_proper (s : String) : (Path.mk s).location.Proper :=
  forall_mem_location ⟨s⟩ fun n hn => by
    rcases eq_of_mem_textSteps hn with hup | ⟨m, hm, hname⟩
    · cases hup
    · cases hm
      exact hname

/-- The last name of a location is proper if it is text. -/
theorem isName_of_location (p : Path) {l : Location} {n : String} (h : p.location = l ++ [n])
    (htext : Name.isText n = true) : IsName n :=
  (Location.descends_child.mp (h ▸ p.location_descends)).2.isName htext

/-- A path to which a proper name is joined means one step more. -/
theorem steps_join (p : Path) {n : String} (h : IsName n) :
    steps (p.join n).signs = steps p.signs ++ [.name n] := by
  have hhead : ¬ n.toList.head? = some '/' :=
    fun heq => h.no_slash (List.mem_of_mem_head? heq)
  rw [join, if_neg hhead]
  split
  · next hend =>
    -- Either there is nothing before the name, or a slash that ends the path before it.
    rcases Bool.or_eq_true_iff.mp hend with hempty | hslash
    · rw [List.isEmpty_iff.mp hempty, List.nil_append, steps_name h]
      rfl
    · obtain ⟨before, hbefore⟩ := List.getLast?_eq_some_iff.mp (of_decide_eq_true hslash)
      rw [hbefore, List.append_assoc, List.singleton_append, steps_append_slash,
        steps_append_slash, steps_name h, steps_nil, List.append_nil]
  · rw [steps_append_slash, steps_name h]

/-- A path with a proper name joined to it names the child of that name. -/
theorem location_join (p : Path) {n : String} (h : IsName n) :
    (p.join n).location = p.location ++ [n] := by
  rw [location_eq, steps_join p h, List.foldl_append, List.foldl_cons, List.foldl_nil,
    confinedStep, List.reverse_cons, ← location_eq]

/-- Steps by names alone lead to those names. -/
theorem foldl_confinedStep_map (l names : Location) :
    (l.map Component.name).foldl confinedStep names = l.reverse ++ names := by
  induction l generalizing names with
  | nil => rfl
  | cons n rest ih =>
    rw [List.map_cons, List.foldl_cons, ih, List.reverse_cons, List.append_assoc]
    rfl

/-- Whether a name is spelled like the signs for which it stands. -/
def Spelled (n : String) : Prop := String.ofList (Name.ofSigns (Name.signs n)) = n

theorem spelled_of_isName {n : String} (h : IsName n) : Spelled n := by
  rw [Spelled, Name.signs_of_isText h.isText, Name.ofSigns_chars, String.ofList_toList]

/-- The names in the location of a path are spelled like the signs for which they stand. -/
theorem spelled_of_mem_location (p : Path) : ∀ n ∈ p.location, Spelled n :=
  p.forall_mem_location fun n hn => by
    rcases eq_of_mem_steps hn with hup | ⟨m, hm, -, piece, hpiece, rfl⟩
    · cases hup
    · cases hm
      rw [Spelled, Name.signs_ofSigns hpiece]

/-- The names of a location with slashes between them are the steps to its children. -/
theorem steps_intercalate {l : Location} (hsteps : l.Descends) (hspelled : ∀ n ∈ l, Spelled n) :
    steps ([Sign.char '/'].intercalate (l.map Name.signs)) = l.map .name := by
  have hname : ∀ n ∈ l, steps (Name.signs n) = [.name n] := by
    intro n hn
    have hchars : Name.ofSigns (Name.signs n) = n.toList := by
      rw [← String.toList_ofList (l := Name.ofSigns _), hspelled n hn]
    have hne := hsteps n hn
    rw [steps_of_not_mem (Name.slash_not_mem_signs n), hchars]
    have hempty : n.toList ≠ [] := fun h => hne.ne_empty (String.toList_inj.mp h)
    have hdot : n.toList ≠ ['.'] := fun h => hne.ne_dot (String.toList_inj.mp h)
    have hdots : n.toList ≠ ['.', '.'] := fun h => hne.ne_dots (String.toList_inj.mp h)
    simp [Component.ofPiece?, hempty, hdot, hdots]
  clear hsteps hspelled
  induction l with
  | nil => rfl
  | cons n rest ih =>
    have hrest := ih fun m hm => hname m (List.mem_cons_of_mem _ hm)
    have hn := hname n List.mem_cons_self
    cases rest with
    | nil => rw [List.map_singleton, List.intercalate_singleton, hn]; rfl
    | cons m more =>
      rw [List.map_cons, List.map_cons, List.intercalate_cons_cons, List.append_assoc, List.singleton_append,
        steps_append_slash, hn, ← List.map_cons, hrest]
      rfl

/-- The path of a location names it. -/
theorem location_path {l : Location} (hsteps : l.Descends) (hspelled : ∀ n ∈ l, Spelled n) :
    l.path.location = l := by
  rw [location_eq, Location.path, steps_slash, steps_intercalate hsteps hspelled, foldl_confinedStep_map,
    List.append_nil, List.reverse_reverse]

theorem location_text {l : Location} (h : l.Proper) : (Path.mk l.text).location = l := by
  have hpath : Path.mk l.text = l.path := by
    rw [Location.text, Location.path_eq h, text_mk]
  rw [hpath, location_path h.descends fun n hn => spelled_of_isName (h n hn)]

end Path

end FileProvider
