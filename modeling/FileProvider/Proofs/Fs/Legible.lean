import FileProvider.Fs.Tree
import FileProvider.Proofs.Json.Records
import FileProvider.Proofs.Path.Location
import FileProvider.Proofs.Run

/-!
# Failures of jobs that can be read back

A job that makes calls passes their failures on, and these can be read back if those of the calls can. A
failure of its own is made by a move alone, which refuses a place that is taken and names the path of the
place as its caller wrote it. A path may have no text, and then the failure has none either; but only the
path that the caller gave can have none, since the paths further down end with the name of an entry. So there
is one kind of refusal that cannot be read back, and `Unnamed` says which.
-/

set_option autoImplicit false

namespace FileProvider

/-- A path to which a name was joined has a text. -/
theorem Path.text_join_ne_empty (p : Path) {name : String} (h : name ≠ "") : (p.join name).text ≠ "" := by
  have hsigns : Sign.ofText name ≠ [] := mt List.map_eq_nil_iff.mp (mt String.toList_eq_nil_iff.mp h)
  rw [ne_eq, Path.text_eq_empty_iff, Path.join]
  split
  · exact hsigns
  · split
    · exact List.append_ne_nil_of_right_ne_nil _ hsigns
    · exact List.append_ne_nil_of_right_ne_nil _ (List.cons_ne_nil _ _)

namespace Backend

variable {σ η : Type} {b : Backend σ η} {P : σ → Prop}

/-- The refusal to move to a path without a text because the place is taken. -/
def Unnamed (target : Path) (conflict : Conflict) (e : FsError) : Prop :=
  target.text = "" ∧
    (conflict = .refuse ∧ e = .alreadyExists "" ∨ conflict ≠ .refuse ∧ e = .isADirectory "")

/-- A refusal that names the path of the place is legible, or the path has no text. -/
theorem legible_or_unnamed {target : Path} {conflict : Conflict} {e : FsError} (htext : e.text? = some target.text)
    (h : target.text = "" → Unnamed target conflict e) : e.Legible ∨ Unnamed target conflict e := by
  by_cases hempty : target.text = ""
  · exact .inr (h hempty)
  · exact .inl (FsError.legible_of_text? htext hempty)

/-- A move passes on what is legible. -/
theorem passed_on {α : Type} {target : Path} {conflict : Conflict} {x : Run σ FsError α}
    (h : FailsFor P (Stop.Meets FsError.Legible) x) :
    FailsFor P (Stop.Meets fun e => e.Legible ∨ Unnamed target conflict e) x :=
  h.mono_run fun _ => .inl

/-- Whether a backend does its jobs by calls that keep an invariant and fail for legible causes. Where the
invariant holds, names that are listed are not empty and the path without a text is that of a directory. -/
structure LegibleOn (b : Backend σ η) (P : σ → Prop) : Prop where
  native : ∀ j, b.native? j = none
  call : ∀ {α : Type} (c : Call η α), FailsFor P FsError.Legible (b.call c)
  named : ∀ {s t path entries}, P s → b.call (.list path) s = .ok entries t → ∀ e ∈ entries, e.name ≠ ""
  rooted : ∀ {s t path record}, P s → path.text = "" → b.call (.stat path) s = .ok record t →
    record.isDir = true

namespace LegibleOn

variable (hb : b.LegibleOn P)

include hb

theorem run {α : Type} (c : Call η α) : FailsFor P (Stop.Meets FsError.Legible) (b.run c) := (hb.call c).ofStep

theorem copy (source target : Path) : FailsFor P (Stop.Meets FsError.Legible) (b.copy source target) := by
  rw [Backend.copy, hb.native]
  exact (hb.run (.read source)).bind fun data => hb.run (.write target data)

theorem removeWalk (depth : Nat) (path : Path) :
    FailsFor P (Stop.Meets FsError.Legible) (b.removeWalk depth path) := by
  induction depth generalizing path with
  | zero => exact .exhausted
  | succ depth ih =>
    refine (hb.run (.list path)).bind fun entries =>
      .bind (.forM fun entry _ => ?_) fun _ => hb.run (.removeDir path)
    dsimp only
    split
    · exact ih _
    · exact hb.run (.delete _)

theorem removeTree (path : Path) : FailsFor P (Stop.Meets FsError.Legible) (b.removeTree path) := by
  rw [Backend.removeTree, hb.native]
  exact fun s hs => hb.removeWalk (b.depth s) path s hs

theorem roomForFile (target : Path) (conflict : Conflict) :
    FailsFor P (Stop.Meets fun e => e.Legible ∨ Unnamed target conflict e) (b.roomForFile target conflict) := by
  refine (passed_on (hb.run (.probe target))).bind fun found => ?_
  split
  · split
    · next hrefuse =>
      exact .fail (legible_or_unnamed rfl fun hempty => ⟨hempty, .inl ⟨hrefuse, by rw [hempty]⟩⟩)
    · next hrefuse =>
      refine (passed_on (hb.run (.stat target))).bind fun record => ?_
      split
      · exact .fail (legible_or_unnamed rfl fun hempty => ⟨hempty, .inr ⟨hrefuse, by rw [hempty]⟩⟩)
      · exact .pure _
  · exact .pure _

theorem roomForDir (target : Path) (conflict : Conflict) :
    FailsFor P (Stop.Meets fun e => e.Legible ∨ Unnamed target conflict e) (b.roomForDir target conflict) := by
  refine (passed_on (hb.run (.probe target))).bind fun found => ?_
  split
  · refine (passed_on (hb.run (.stat target))).bind_of_ok fun s record t hs hrun => ?_
    split
    · next hfile =>
      refine .fail (legible_or_unnamed rfl fun hempty => ?_)
      have hdir : record.isDir = true := hb.rooted hs hempty (Run.eq_ok_of_ofStep hrun)
      rw [hdir] at hfile
      cases hfile
    · split
      · exact .fail (legible_or_unnamed rfl fun hempty => ⟨hempty, .inl ⟨rfl, by rw [hempty]⟩⟩)
      · exact .pure _
      · exact passed_on ((hb.removeTree target).bind fun _ => hb.run (.createDir target))
  · exact passed_on (hb.run (.createDir target))

/-- Only the path that the caller gave can have no text. -/
theorem moveWalk (depth : Nat) (source target : Path) (conflict : Conflict) :
    FailsFor P (Stop.Meets fun e => e.Legible ∨ Unnamed target conflict e)
      (b.moveWalk depth source target conflict) := by
  induction depth generalizing source target with
  | zero => exact .exhausted
  | succ depth ih =>
    refine (passed_on (hb.run (.stat source))).bind fun record => ?_
    split
    · refine (hb.roomForDir target conflict).bind fun _ =>
        (passed_on (hb.run (.list source))).bind_of_ok fun s entries t hs hrun => ?_
      refine .bind (.forM fun entry hentry => ?_) fun _ => passed_on (hb.run (.removeDir source))
      have hname : entry.name ≠ "" := hb.named hs (Run.eq_ok_of_ofStep hrun) entry hentry
      refine (ih _ _).mono_run fun e he => .inl (he.resolve_right ?_)
      exact fun hunnamed => target.text_join_ne_empty hname hunnamed.1
    · exact (hb.roomForFile target conflict).bind fun _ =>
        passed_on ((hb.copy source target).bind fun _ => hb.run (.delete source))

theorem moveTree (source target : Path) (conflict : Conflict) :
    FailsFor P (Stop.Meets fun e => e.Legible ∨ Unnamed target conflict e)
      (b.moveTree source target conflict) := by
  rw [Backend.moveTree, hb.native]
  exact fun s hs => hb.moveWalk (b.depth s) source target conflict s hs

end LegibleOn

end Backend

end FileProvider
