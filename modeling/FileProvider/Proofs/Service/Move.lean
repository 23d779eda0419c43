import FileProvider.Proofs.Memory.Endless
import FileProvider.Proofs.Memory.Session
import FileProvider.Service.Move

/-!
# Moving an entry below itself

The service compares paths as they are written, the filesystem as locations. A move of an entry below
itself is therefore not always noticed before it reaches the filesystem. This module says when it is,
and what happens otherwise: a rename is refused with the filesystem's own code, and a move by copying
never ends.
-/

set_option autoImplicit false

namespace FileProvider

/-- The answer for a run that gave a value is that value. -/
theorem Reply.ofRun_ok {σ α : Type} {x : Run σ ServiceError α} {s t : σ} {a : α} (h : x s = .ok a t)
    (empty : α) : ofRun empty x s = some (success a, t) := by
  rw [ofRun, Run.outcome, h]
  rfl

/-- The answer for a failed run is the empty value with the code of its cause. -/
theorem Reply.ofRun_failed {σ α : Type} {x : Run σ ServiceError α} {s t : σ} {e : ServiceError}
    (h : x s = .error (.failed e) t) (empty : α) : ofRun empty x s = some (⟨empty, e.code⟩, t) := by
  rw [ofRun, Run.outcome, h]
  rfl

/-- There is no answer for a run that reached its depth limit. -/
theorem Reply.ofRun_exhausted {σ α : Type} {x : Run σ ServiceError α} {s t : σ}
    (h : x s = .error .exhausted t) (empty : α) : ofRun empty x s = none := by
  rw [ofRun, Run.outcome, h]
  rfl

namespace Service

open Memory

variable {σ η α : Type}

/-! ## One part after the other -/

/-- A run of the filesystem that the service passes on ends as it does by itself. -/
theorem passOn_apply (x : Run σ FsError α) (S : Service σ η) :
    passOn x S = match x S.fs with
      | .ok a fs => .ok a { S with fs := fs }
      | .error (.failed e) fs => .error (.failed (.platform e)) { S with fs := fs }
      | .error .exhausted fs => .error .exhausted { S with fs := fs } := by
  unfold passOn onFs Run.mapError Run.zoom
  cases x S.fs with
  | ok a fs => rfl
  | error e fs => cases e <;> rfl

/-- A run of the filesystem whose failures the service reports as its own ends as it does by itself. -/
theorem reportAs_apply (x : Run σ FsError α) (S : Service σ η) :
    reportAs x S = match x S.fs with
      | .ok a fs => .ok a { S with fs := fs }
      | .error (.failed e) fs => .error (.failed (.invalidOperation e.message)) { S with fs := fs }
      | .error .exhausted fs => .error .exhausted { S with fs := fs } := by
  unfold reportAs onFs Run.mapError Run.zoom
  cases x S.fs with
  | ok a fs => rfl
  | error e fs => cases e <;> rfl

theorem check_apply {uri : String} (h : Uri.isAddress uri = true) (S : Service σ η) :
    check uri S = .ok () S := by
  rw [check, if_pos h]
  rfl

theorem pathOf_apply (uri : String) (S : Service σ η) :
    pathOf uri S = .ok ⟨Uri.pathOf S.bundle uri⟩ S := rfl

/-- A source is required to be there. -/
theorem requireSource_apply {depth : Store → Nat} (path : Path) (S : Service Store OpenFile) :
    requireSource (backendTo depth) path S = match S.fs.find? path.location with
      | some _ => .ok () S
      | none =>
        .error (.failed (.invalidOperation ("source " ++ path.text ++ " is not accessible"))) S := by
  rw [requireSource, bind_apply, passOn_apply, run_probe]
  dsimp only
  cases S.fs.find? path.location <;> rfl

/-- A target is required to be a directory; anything else is refused in the same way. -/
theorem requireTargetDir_cases (depth : Store → Nat) (uri : String) (S : Service Store OpenFile) :
    (S.fs.IsDir (Path.mk (Uri.pathOf S.bundle uri)).location ∧
      requireTargetDir (backendTo depth) uri S = .ok () S) ∨
    (¬ S.fs.IsDir (Path.mk (Uri.pathOf S.bundle uri)).location ∧
      requireTargetDir (backendTo depth) uri S
        = .error (.failed (.invalidOperation ("target " ++ uri ++ " is not a directory"))) S) := by
  rw [requireTargetDir, bind_apply, pathOf_apply]
  dsimp only
  rw [bind_apply]
  unfold onFs Run.attempt Run.zoom
  cases hfound : S.fs.find? (Path.mk (Uri.pathOf S.bundle uri)).location with
  | none =>
    have hstat : (backendTo depth).run (.stat ⟨Uri.pathOf S.bundle uri⟩) S.fs
        = .error (.failed (.notFound (Path.mk (Uri.pathOf S.bundle uri)).location.text)) S.fs :=
      run_of_error (by rw [call, stat_apply, hfound])
    refine .inr ⟨?_, by rw [hstat]; rfl⟩
    rintro ⟨ino, names, hdir⟩
    rw [hfound] at hdir
    cases hdir
  | some node =>
    rw [run_stat hfound]
    cases node with
    | file ino data =>
      refine .inr ⟨?_, rfl⟩
      rintro ⟨ino, names, hdir⟩
      rw [hfound] at hdir
      cases hdir
    | dir ino names => exact .inl ⟨⟨ino, names, hfound⟩, rfl⟩

/-- A move within one root is a rename. -/
theorem transfer_within {b : Backend σ η} {S : Service σ η} {source target : String}
    (h : S.isCrossDevice source target = false) (old new : Path) :
    transfer b source target old new S = passOn (b.run (.rename old new)) S := by
  rw [transfer, bind_apply]
  change (if S.isCrossDevice source target = true then _ else _ : Op σ η Unit) S = _
  rw [h, if_neg Bool.false_ne_true]

/-- A move that no root covers copies. -/
theorem transfer_across {b : Backend σ η} {S : Service σ η} {source target : String}
    (h : S.isCrossDevice source target = true) (old new : Path) :
    transfer b source target old new S = reportAs (b.moveTree old new .refuse) S := by
  rw [transfer, bind_apply]
  change (if S.isCrossDevice source target = true then _ else _ : Op σ η Unit) S = _
  rw [if_pos h]

/-- The path of the entry that is to be moved. -/
def movedFrom (S : Service σ η) (source : String) : Path := ⟨Uri.pathOf S.bundle source⟩

/-- The path that the entry is to have. -/
def movedTo (S : Service σ η) (source target : String) : Path :=
  ⟨Uri.pathOf S.bundle (Uri.child target (Uri.lastSegment source))⟩

/-- A move between valid URIs begins by comparing the two paths. -/
theorem moveFile_checked (b : Backend σ η) (S : Service σ η) {source target : String}
    (hsource : Uri.isAddress source = true) (htarget : Uri.isAddress target = true) :
    moveFile b source target S =
      (if S.movedFrom source = S.movedTo source target then
        pure (Uri.child target (Uri.lastSegment source))
      else if isBelow (S.movedTo source target).text (S.movedFrom source).text then
        Run.fail (.invalidOperation
          ("cannot move " ++ (S.movedFrom source).text ++ " into its own subtree"))
      else do
        requireSource b (S.movedFrom source)
        requireTargetDir b target
        transfer b source target (S.movedFrom source) (S.movedTo source target)
        pure (Uri.child target (Uri.lastSegment source)) : Op σ η String) S := by
  rw [moveFile, bind_apply, check_apply hsource]
  dsimp only
  rw [bind_apply, check_apply htarget]
  dsimp only
  rw [bind_apply, pathOf_apply]
  dsimp only
  rw [bind_apply, pathOf_apply]
  rfl

/-- A move between equal paths is done before anything is looked at. -/
theorem moveFile_same (b : Backend σ η) {S : Service σ η} {source target : String}
    (hsource : Uri.isAddress source = true) (htarget : Uri.isAddress target = true)
    (heq : S.movedFrom source = S.movedTo source target) :
    moveFile b source target S = .ok (Uri.child target (Uri.lastSegment source)) S := by
  rw [moveFile_checked b S hsource htarget, if_pos heq]
  rfl

/-- A move between valid URIs with different paths, once the paths are compared. -/
theorem moveFile_apply (b : Backend σ η) (S : Service σ η) {source target : String}
    (hsource : Uri.isAddress source = true) (htarget : Uri.isAddress target = true)
    (hne : S.movedFrom source ≠ S.movedTo source target) :
    moveFile b source target S =
      (if isBelow (S.movedTo source target).text (S.movedFrom source).text then
        Run.fail (.invalidOperation
          ("cannot move " ++ (S.movedFrom source).text ++ " into its own subtree"))
      else do
        requireSource b (S.movedFrom source)
        requireTargetDir b target
        transfer b source target (S.movedFrom source) (S.movedTo source target)
        pure (Uri.child target (Uri.lastSegment source)) : Op σ η String) S := by
  rw [moveFile_checked b S hsource htarget, if_neg hne]

/-! ## Below the source -/

section

variable {S : Service Store OpenFile} {source target : String} {old new : Path} {node : Node}
  {r : Location}

/-- A rename below the source is refused by the filesystem, with a code of its own. -/
theorem transfer_within_below (depth : Store → Nat) (hdevice : S.isCrossDevice source target = false)
    (hold : S.fs.find? old.location = some node) (hr : r ≠ [])
    (hbelow : new.location = old.location ++ r) :
    ∃ what, transfer (backendTo depth) source target old new S
      = .error (.failed (.platform (.invalidArgument what))) S := by
  have hne : old.location ≠ new.location := fun heq =>
    hr (List.self_eq_append_right.mp (heq.trans hbelow))
  have hrename : (backendTo depth).run (.rename old new) S.fs = .error (.failed _) S.fs :=
    run_of_error (rename_below hold hne ⟨r, hbelow.symm⟩)
  exact ⟨_, by rw [transfer_within hdevice, passOn_apply, hrename]⟩

/-- Nothing is copied to a place that is taken, or that is in no directory. -/
theorem transfer_across_refused (hdevice : S.isCrossDevice source target = true)
    (hold : S.fs.find? old.location = some node) {q : Location} {m : String}
    (hnew : new.location = q ++ [m]) (hplace : S.fs.find? (q ++ [m]) = none → ¬ S.fs.Admits (q ++ [m])) :
    ∃ what, transfer backend source target old new S
      = .error (.failed (.invalidOperation what)) S := by
  have hmove : ∃ e, backend.moveTree old new .refuse S.fs = .error (.failed e) S.fs := by
    by_cases hfree : S.fs.find? (q ++ [m]) = none
    · rcases holderOf_cases (q ++ [m]) S.fs with ⟨e, he, -⟩ | ⟨q', m', hlast, hm, hq, -⟩
      · exact ⟨e, moveWalk_refused hnew hfree hold he .refuse⟩
      · exact absurd ⟨q', m', hlast, hm, hq⟩ (hplace hfree)
    · refine moveWalk_taken ?_ ?_
      · rw [hold]
        rfl
      · rw [hnew]
        exact Option.isSome_iff_ne_none.mpr hfree
  obtain ⟨e, he⟩ := hmove
  exact ⟨_, by rw [transfer_across hdevice, reportAs_apply, he]⟩

/-- A copy to a free place below the source never ends. -/
theorem transfer_across_endless (depth : Store → Nat) (h : S.fs.WellFormed)
    (hdevice : S.isCrossDevice source target = true) (hr : r ≠ [])
    (hbelow : new.location = old.location ++ r) {q : Location} {m : String}
    (hnew : new.location = q ++ [m]) (hfree : S.fs.find? (q ++ [m]) = none) (hm : Name.isText m = true)
    (hq : S.fs.IsDir q) : ∃ T, transfer (backendTo depth) source target old new S = .error .exhausted T := by
  obtain ⟨t, ht⟩ : ∃ t, (backendTo depth).moveTree old new .refuse S.fs = .error .exhausted t :=
    (moveWalk_endless .refuse (depth S.fs) h hr hbelow hnew hfree hm hq).eq_exhausted
  exact ⟨_, by rw [transfer_across hdevice, reportAs_apply, ht]⟩

end

/-! ## The answer -/

variable {S : Service Store OpenFile} {source target : String}

/-- Whether a move passes all checks that are made before anything is changed. -/
structure Passes (S : Service Store OpenFile) (source target : String) : Prop where
  written : isBelow (S.movedTo source target).text (S.movedFrom source).text = false
  source : ∃ node, S.fs.find? (S.movedFrom source).location = some node
  target : S.fs.IsDir (Path.mk (Uri.pathOf S.bundle target)).location

/-- Whether there is room for the entry where it is to be: nothing, in a directory. -/
structure Room (S : Service Store OpenFile) (source target : String) : Prop where
  free : S.fs.find? (S.movedTo source target).location = none
  parent : S.fs.IsDir (S.movedTo source target).location.dropLast

/-- What is moved goes to a place whose name is text, since a URI is. -/
theorem isText_movedTo {q : Location} {m : String} (h : (S.movedTo source target).location = q ++ [m]) :
    Name.isText m = true :=
  (Location.proper_child.mp (h ▸ Path.location_proper _)).2.isText

theorem ne_of_below {r : Location} (hr : r ≠ [])
    (hbelow : (S.movedTo source target).location = (S.movedFrom source).location ++ r) :
    S.movedFrom source ≠ S.movedTo source target := fun heq =>
  hr (List.self_eq_append_right.mp ((congrArg Path.location heq).trans hbelow))

section

variable (hsource : Uri.isAddress source = true) (htarget : Uri.isAddress target = true)
  (hne : S.movedFrom source ≠ S.movedTo source target)

include hsource htarget hne

/-- A move that does not pass the checks is refused. -/
theorem moveFile_of_not_passes {depth : Store → Nat} (h : ¬ S.Passes source target) :
    ∃ what, moveFile (backendTo depth) source target S
      = .error (.failed (.invalidOperation what)) S := by
  rw [moveFile_apply (backendTo depth) S hsource htarget hne]
  cases hwritten : isBelow (S.movedTo source target).text (S.movedFrom source).text with
  | true => exact ⟨_, rfl⟩
  | false =>
    rw [if_neg Bool.false_ne_true, bind_apply, requireSource_apply]
    cases hold : S.fs.find? (S.movedFrom source).location with
    | none => exact ⟨_, rfl⟩
    | some node =>
      dsimp only
      rw [bind_apply]
      rcases requireTargetDir_cases depth target S with ⟨hdir, -⟩ | ⟨-, hrefused⟩
      · exact absurd ⟨hwritten, ⟨node, hold⟩, hdir⟩ h
      · exact ⟨_, by rw [hrefused]⟩

/-- A move that passes the checks ends as its transfer does. -/
theorem moveFile_of_passes {depth : Store → Nat} (h : S.Passes source target) :
    moveFile (backendTo depth) source target S
      = (transfer (backendTo depth) source target (S.movedFrom source) (S.movedTo source target) >>=
          fun _ => pure (Uri.child target (Uri.lastSegment source)) : Op Store OpenFile String) S := by
  obtain ⟨node, hold⟩ := h.source
  rw [moveFile_apply (backendTo depth) S hsource htarget hne, h.written, if_neg Bool.false_ne_true,
    bind_apply, requireSource_apply, hold]
  dsimp only
  rw [bind_apply]
  rcases requireTargetDir_cases depth target S with ⟨-, hok⟩ | ⟨hno, -⟩
  · rw [hok]
  · exact absurd h.target hno

end

section

variable (hsource : Uri.isAddress source = true) (htarget : Uri.isAddress target = true) {r : Location}
  (hr : r ≠ []) (hbelow : (S.movedTo source target).location = (S.movedFrom source).location ++ r)

include hsource htarget hr hbelow

/-- A rename below the source is answered with the code of the filesystem. -/
theorem reply_of_within (hpasses : S.Passes source target)
    (hdevice : S.isCrossDevice source target = false) :
    Reply.ofRun "" (moveFile backend source target) S = some (⟨"", 13900020⟩, S) := by
  obtain ⟨node, hold⟩ := hpasses.source
  obtain ⟨what, hwhat⟩ := transfer_within_below backend.depth hdevice hold hr hbelow
  refine Reply.ofRun_failed (e := .platform (.invalidArgument what)) ?_ ""
  rw [← backendTo_depth,
    moveFile_of_passes hsource htarget (ne_of_below hr hbelow) hpasses, bind_apply, hwhat]

/-- A copy below the source, once it begins, has no answer. -/
theorem reply_of_across (hwf : S.fs.WellFormed) (hpasses : S.Passes source target)
    (hdevice : S.isCrossDevice source target = true) (hroom : S.Room source target)
    (depth : Store → Nat) :
    Reply.ofRun "" (moveFile (backendTo depth) source target) S = none := by
  obtain ⟨q, m, hlast⟩ := Location.exists_eq_append (hbelow ▸ List.append_ne_nil_of_right_ne_nil _ hr)
  obtain ⟨hfree, hparent⟩ := hroom
  rw [hlast] at hfree hparent
  rw [List.dropLast_concat] at hparent
  obtain ⟨T, hT⟩ := transfer_across_endless depth hwf hdevice hr hbelow hlast hfree (isText_movedTo hlast) hparent
  refine Reply.ofRun_exhausted (t := T) ?_ ""
  rw [moveFile_of_passes hsource htarget (ne_of_below hr hbelow) hpasses, bind_apply, hT]

/-- A move below the source that does not pass the checks, or finds no room for a copy, is refused. -/
theorem reply_of_refused
    (h : ¬ S.Passes source target ∨
      (S.isCrossDevice source target = true ∧ ¬ S.Room source target)) :
    Reply.ofRun "" (moveFile backend source target) S = some (⟨"", 14300004⟩, S) := by
  obtain ⟨what, hwhat⟩ : ∃ what, moveFile backend source target S
      = .error (.failed (.invalidOperation what)) S := by
    rw [← backendTo_depth]
    by_cases hpasses : S.Passes source target
    · obtain ⟨hdevice, hroom⟩ := h.resolve_left (not_not_intro hpasses)
      obtain ⟨q, m, hlast⟩ := Location.exists_eq_append (hbelow ▸ List.append_ne_nil_of_right_ne_nil _ hr)
      obtain ⟨node, hold⟩ := hpasses.source
      obtain ⟨what, hwhat⟩ := transfer_across_refused hdevice hold hlast fun hfree hadmits =>
        hroom ⟨by rw [hlast, hfree], by rw [hlast, List.dropLast_concat]; exact (admits_child.mp hadmits).2⟩
      rw [← backendTo_depth] at hwhat
      exact ⟨what, by
        rw [moveFile_of_passes hsource htarget (ne_of_below hr hbelow) hpasses, bind_apply, hwhat]⟩
    · exact moveFile_of_not_passes hsource htarget (ne_of_below hr hbelow) hpasses
  exact Reply.ofRun_failed hwhat ""

end

/-- A move of an entry below itself is refused as such, and changes nothing, exactly if it does not pass
the checks or there is no room for a copy. Otherwise it is the filesystem that refuses a rename, with
its own code, and a copy never ends, whatever the depth limit is. -/
theorem moveFile_below {a : Session} (ha : a.Reachable) (hfs : S.fs = a.store)
    (hsource : Uri.isAddress source = true) (htarget : Uri.isAddress target = true) {r : Location}
    (hr : r ≠ []) (hbelow : (S.movedTo source target).location = (S.movedFrom source).location ++ r) :
    (Reply.ofRun "" (moveFile backend source target) S = some (⟨"", 14300004⟩, S) ↔
      ¬ S.Passes source target ∨
        (S.isCrossDevice source target = true ∧ ¬ S.Room source target)) ∧
    (S.Passes source target → S.isCrossDevice source target = false →
      Reply.ofRun "" (moveFile backend source target) S = some (⟨"", 13900020⟩, S)) ∧
    (S.Passes source target → S.isCrossDevice source target = true → S.Room source target →
      ∀ depth, Reply.ofRun "" (moveFile (backendTo depth) source target) S = none) := by
  have hwf : S.fs.WellFormed := hfs ▸ ha.sound.store
  have hwithin := reply_of_within hsource htarget hr hbelow
  have hacross := reply_of_across hsource htarget hr hbelow hwf
  refine ⟨⟨fun hanswer => ?_, reply_of_refused hsource htarget hr hbelow⟩, hwithin, hacross⟩
  by_contra hnot
  obtain ⟨hpasses, hroom⟩ := not_or.mp hnot
  rw [not_not] at hpasses
  cases hdevice : S.isCrossDevice source target with
  | false =>
    rw [hwithin hpasses hdevice] at hanswer
    cases hanswer
  | true =>
    have hnone := hacross hpasses hdevice (by_contra fun h => hroom ⟨hdevice, h⟩) backend.depth
    rw [backendTo_depth, hanswer] at hnone
    cases hnone

/-- A dot can hide that the target lies below the source: then a rename within a volume is answered with
the code of the filesystem, and without the volume a copy never ends. -/
theorem moveFile_below_dotted :
    ∃ (fs : Store) (v : Volume),
      Reply.ofRun "" (moveFile backend "file:///d" "file:///./d")
        ((start "b" fs : Service Store OpenFile).withHub (VolumeHub.withTable fun t => t.add v))
          = some (⟨"", 13900020⟩, (start "b" fs).withHub (VolumeHub.withTable fun t => t.add v)) ∧
      ∀ depth, Reply.ofRun "" (moveFile (backendTo depth) "file:///d" "file:///./d") (start "b" fs)
        = none := by
  have h : Session.Reachable ⟨_, _⟩ := .step .start (.call (.createDir ⟨"/d"⟩) _ _)
  refine ⟨_, ⟨"card", "", "/", "file:///", "card", "", .removable, .sd⟩,
    (moveFile_below h rfl (by decide +kernel) (by decide +kernel)
      (List.cons_ne_nil "d" []) (by decide +kernel)).2.1 ⟨by decide +kernel, ?_, ?_⟩
      (by decide +kernel),
    (moveFile_below h rfl (by decide +kernel) (by decide +kernel)
      (List.cons_ne_nil "d" []) (by decide +kernel)).2.2 ⟨by decide +kernel, ?_, ?_⟩
      (by decide +kernel) ⟨by decide +kernel, ?_⟩⟩
  · exact ⟨.dir 2 [], by decide +kernel⟩
  · exact ⟨2, [], by decide +kernel⟩
  · exact ⟨.dir 2 [], by decide +kernel⟩
  · exact ⟨2, [], by decide +kernel⟩
  · exact ⟨2, [], by decide +kernel⟩

end Service

end FileProvider
