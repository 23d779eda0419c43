import FileProvider.Fs.Tree
import FileProvider.Proofs.Run

/-!
# Jobs keep what calls keep

A job does nothing but make calls, so it keeps every invariant that its calls keep, as deep as it walks
and whichever way it ends. The calls may be told apart by their paths: a walk goes from a path only to
those of the names that are listed there, so that it is enough to know what is kept on paths of one kind.
Files are written only where something is copied or moved to, which may be paths of a narrower kind.
-/

set_option autoImplicit false

namespace FileProvider

/-- Whether a call may write a file. -/
def Call.writes {η α : Type} : Call η α → Bool
  | .write _ _ => true
  | .create _ => true
  | .openFile _ _ => true
  | _ => false

namespace Backend

variable {σ η : Type} {b : Backend σ η} {P : σ → Prop} {On Into : Path → Prop}

theorem moveByCopy_apply (b : Backend σ η) (source target : Path) (conflict : Conflict) (s : σ) :
    b.moveByCopy source target conflict s = b.moveWalk (b.depth s) source target conflict s := rfl

/-- The walk that removes keeps what its three kinds of calls keep. -/
theorem keeps_removeWalk (hlist : ∀ path, Keeps P (b.call (.list path)))
    (hdelete : ∀ path, Keeps P (b.call (.delete path))) (hremoveDir : ∀ path, Keeps P (b.call (.removeDir path)))
    (depth : Nat) (path : Path) : Keeps P (b.removeWalk depth path) := by
  induction depth generalizing path with
  | zero => exact .exhausted
  | succ depth ih =>
    refine (hlist path).ofStep.bind fun entries => .bind (.forM fun entry _ => ?_) fun _ =>
      (hremoveDir path).ofStep
    dsimp only
    split
    · exact ih _
    · exact (hdelete _).ofStep

/-- Whether a backend keeps an invariant on paths of one kind, files being written on those of a narrower
kind, and lists no name that leads from a path of either kind to one of another. -/
structure KeepsOn (b : Backend σ η) (P : σ → Prop) (On Into : Path → Prop) : Prop where
  into : ∀ {path}, Into path → On path
  call : ∀ {α : Type} (c : Call η α), c.target? = none → On c.subject → (c.writes = true → Into c.subject) →
    Keeps P (b.call c)
  list : ∀ {s t path entries}, P s → On path → b.call (.list path) s = .ok entries t →
    ∀ e ∈ entries, ∀ q, (On q → On (q.join e.name)) ∧ (Into q → Into (q.join e.name))
  native : ∀ j job, b.native? j = some job → On j.subject → (∀ q, j.target? = some q → Into q) → Keeps P job

/-- What all calls and jobs keep is kept on all paths. -/
theorem KeepsOn.everywhere (hcall : ∀ {α : Type} (c : Call η α), Keeps P (b.call c))
    (hnative : ∀ j job, b.native? j = some job → Keeps P job) :
    KeepsOn b P (fun _ => True) fun _ => True where
  into := id
  call c _ _ _ := hcall c
  list _ _ _ _ _ _ := ⟨id, id⟩
  native j job hjob _ _ := hnative j job hjob

namespace KeepsOn

variable (hb : KeepsOn b P On Into)

include hb

theorem run {α : Type} (c : Call η α) (hc : c.target? = none) (hw : c.writes = false)
    (hon : On c.subject) : Keeps P (b.run c) :=
  (hb.call c hc hon fun h => Bool.noConfusion (hw.symm.trans h)).ofStep

/-- A walk that begins with a listing goes on with names that are listed. -/
theorem listing {α : Type} {path : Path} {f : List Entry → Run σ FsError α} (hpath : On path)
    (hf : ∀ entries : List Entry,
      (∀ e ∈ entries, ∀ q, (On q → On (q.join e.name)) ∧ (Into q → Into (q.join e.name))) →
      Keeps P (f entries)) :
    Keeps P (b.run (.list path) >>= f) :=
  (hb.run (.list path) rfl rfl hpath).bind_of_ok fun _ entries _ hs hrun =>
    hf entries (hb.list hs hpath (Run.eq_ok_of_ofStep hrun))

theorem copyContent {source target : Path} (hsource : On source) (htarget : Into target) :
    Keeps P (b.copyContent source target) :=
  (hb.run (.read source) rfl rfl hsource).bind fun data =>
    (hb.call (.write target data) rfl (hb.into htarget) fun _ => htarget).ofStep

theorem copy {source target : Path} (hsource : On source) (htarget : Into target) :
    Keeps P (b.copy source target) := by
  unfold Backend.copy
  split
  · next job hjob =>
    refine hb.native _ _ hjob hsource fun q hq => ?_
    cases hq
    exact htarget
  · exact hb.copyContent hsource htarget

theorem removeWalk (depth : Nat) {path : Path} (hpath : On path) : Keeps P (b.removeWalk depth path) := by
  induction depth generalizing path with
  | zero => exact .exhausted
  | succ depth ih =>
    refine hb.listing hpath fun entries hentries => .bind (.forM fun entry hentry => ?_) fun _ =>
      hb.run (.removeDir path) rfl rfl hpath
    have hchild : On (path.join entry.name) := (hentries entry hentry path).1 hpath
    dsimp only
    split
    · exact ih hchild
    · exact hb.run (.delete _) rfl rfl hchild

theorem removeTree {path : Path} (hpath : On path) : Keeps P (b.removeTree path) := by
  unfold Backend.removeTree
  split
  · next hjob => exact hb.native _ _ hjob hpath nofun
  · exact fun s hs => hb.removeWalk (b.depth s) hpath s hs

theorem roomForFile {target : Path} (htarget : On target) (conflict : Conflict) :
    Keeps P (b.roomForFile target conflict) := by
  refine (hb.run (.probe target) rfl rfl htarget).bind fun found => ?_
  split
  · split
    · exact .fail _
    · refine (hb.run (.stat target) rfl rfl htarget).bind fun stat => ?_
      split
      · exact .fail _
      · exact .pure _
  · exact .pure _

theorem roomForDir {target : Path} (htarget : On target) (conflict : Conflict) :
    Keeps P (b.roomForDir target conflict) := by
  refine (hb.run (.probe target) rfl rfl htarget).bind fun found => ?_
  split
  · refine (hb.run (.stat target) rfl rfl htarget).bind fun stat => ?_
    split
    · exact .fail _
    · split
      · exact .fail _
      · exact .pure _
      · exact (hb.removeTree htarget).bind fun _ => hb.run (.createDir target) rfl rfl htarget
  · exact hb.run (.createDir target) rfl rfl htarget

theorem moveWalk (depth : Nat) {source target : Path} (hsource : On source) (htarget : Into target)
    (conflict : Conflict) : Keeps P (b.moveWalk depth source target conflict) := by
  induction depth generalizing source target with
  | zero => exact .exhausted
  | succ depth ih =>
    refine (hb.run (.stat source) rfl rfl hsource).bind fun stat => ?_
    split
    · exact (hb.roomForDir (hb.into htarget) conflict).bind fun _ => hb.listing hsource fun entries hentries =>
        .bind (.forM fun entry hentry => ih ((hentries entry hentry source).1 hsource)
          ((hentries entry hentry target).2 htarget)) fun _ => hb.run (.removeDir source) rfl rfl hsource
    · exact (hb.roomForFile (hb.into htarget) conflict).bind fun _ =>
        (hb.copy hsource htarget).bind fun _ => hb.run (.delete source) rfl rfl hsource

theorem moveByCopy {source target : Path} (hsource : On source) (htarget : Into target)
    (conflict : Conflict) : Keeps P (b.moveByCopy source target conflict) :=
  fun s hs => hb.moveWalk (b.depth s) hsource htarget conflict s hs

theorem moveTree {source target : Path} (hsource : On source) (htarget : Into target)
    (conflict : Conflict) : Keeps P (b.moveTree source target conflict) := by
  unfold Backend.moveTree
  split
  · next hjob =>
    refine hb.native _ _ hjob hsource fun q hq => ?_
    cases hq
    exact htarget
  · exact hb.moveByCopy hsource htarget conflict

end KeepsOn

end Backend

end FileProvider
