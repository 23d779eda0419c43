import FileProvider.Proofs.Fs.Legible
import FileProvider.Proofs.Memory.Presence

/-!
# What can be read back of what a session answers

A store names what it refuses by a location, and the text of a location is never empty, so that every
failure of a call can be read back; of the jobs, only a move to a path without a text can fail for a cause
that cannot. The names of the entries are those of locations: they are not empty and hold no slash. That is
all that a store asks of a name, and it is less than what a name that is read is asked for.
-/

set_option autoImplicit false

namespace FileProvider

/-- Of the names of locations, the check refuses those with a null character or a backslash. -/
theorem Entry.checkName_iff {name : String} (h : IsName name) :
    checkName name = .ok () ↔ '\x00' ∉ name.toList ∧ '\\' ∉ name.toList := by
  have hne : name.isEmpty = false := by
    rw [← Bool.not_eq_true, String.isEmpty_iff]
    exact fun heq => h.ne_empty (congrArg String.toList heq)
  have hseparator : (name.toList.any fun c => c = '/' || c = '\\') = decide ('\\' ∈ name.toList) := by
    rw [Bool.eq_iff_iff, List.any_eq_true, decide_eq_true_iff]
    constructor
    · rintro ⟨c, hc, heq⟩
      rcases Bool.or_eq_true_iff.mp heq with heq | heq
      · exact absurd (of_decide_eq_true heq ▸ hc) h.no_slash
      · exact of_decide_eq_true heq ▸ hc
    · exact fun hback => ⟨'\\', hback, rfl⟩
  unfold checkName
  rw [hne, hseparator]
  by_cases hnull : '\x00' ∈ name.toList <;> by_cases hback : '\\' ∈ name.toList <;> simp [hnull, hback]

namespace Memory

variable {l : Location}

/-! ## Operations on a store -/

/-- Whether an operation fails for legible causes, whatever the state. -/
abbrev FailsLegibly {σ α : Type} (x : Step σ FsError α) : Prop := FailsFor (fun _ => True) FsError.Legible x

/-- A refusal that names a location is legible. -/
theorem failsLegibly_refused {α : Type} {e : FsError} (h : e.text? = some l.text) :
    FailsLegibly (throw e : Op α) := .throw (FsError.legible_of_text? h l.text_ne_empty)

theorem failsLegibly_look (l : Location) : FailsLegibly (look l) := fun _ _ => trivial

theorem failsLegibly_modify (f : Store → Store) : FailsLegibly (modify f : Op Unit) := fun _ _ => trivial

theorem failsLegibly_parentOf (l : Location) : FailsLegibly (parentOf l) := by
  rcases Location.eq_nil_or_append l with rfl | ⟨p, n, rfl⟩
  · exact .throw (by decide)
  · cases hn : Name.isText n with
    | true => exact parentOf_child hn ▸ .pure _
    | false =>
      rw [parentOf_foreign hn]
      refine .throw (FsError.legible_of_text? rfl fun heq => ?_)
      simp at heq

theorem failsLegibly_namesOf (l : Location) : FailsLegibly (namesOf l) := by
  refine (failsLegibly_look l).bind fun found => ?_
  split
  · exact .pure _
  · exact failsLegibly_refused rfl
  · exact failsLegibly_refused rfl

theorem failsLegibly_requireDir (l : Location) : FailsLegibly (requireDir l) :=
  (failsLegibly_namesOf l).bind fun _ => .pure _

theorem failsLegibly_holderOf (l : Location) : FailsLegibly (holderOf l) :=
  (failsLegibly_parentOf l).bind fun place => (failsLegibly_requireDir place.1).bind fun _ => .pure _

theorem failsLegibly_read (l : Location) : FailsLegibly (read l) := by
  refine (failsLegibly_look l).bind fun found => ?_
  split
  · exact .pure _
  · exact failsLegibly_refused rfl
  · exact failsLegibly_refused rfl

theorem failsLegibly_write (l : Location) (data : Bytes) : FailsLegibly (write l data) := by
  refine (failsLegibly_holderOf l).bind fun place => (failsLegibly_look l).bind fun found => ?_
  split
  · exact failsLegibly_refused rfl
  · exact failsLegibly_modify _
  · exact failsLegibly_modify _

theorem failsLegibly_delete (l : Location) : FailsLegibly (delete l) := by
  refine (failsLegibly_look l).bind fun found => ?_
  split
  · exact failsLegibly_refused rfl
  · exact (failsLegibly_parentOf l).bind fun _ => failsLegibly_modify _
  · exact failsLegibly_refused rfl

theorem failsLegibly_stat (l : Location) : FailsLegibly (stat l) := by
  refine (failsLegibly_look l).bind fun found => ?_
  split
  · exact .pure _
  · exact failsLegibly_refused rfl

theorem failsLegibly_list (l : Location) : FailsLegibly (list l) :=
  (failsLegibly_namesOf l).bind fun _ => fun _ _ => trivial

theorem failsLegibly_createDir (l : Location) : FailsLegibly (createDir l) := by
  have hadd : FailsLegibly (do
      let place ← holderOf l
      modify (·.add place.1 place.2 fun ino => .dir ino []) : Op Unit) :=
    (failsLegibly_holderOf l).bind fun _ => failsLegibly_modify _
  refine (failsLegibly_look l).bind fun found => ?_
  dsimp only
  split
  · exact (failsLegibly_refused rfl).bind fun _ => hadd
  · exact hadd

theorem failsLegibly_removeDir (l : Location) : FailsLegibly (removeDir l) := by
  have hremove : FailsLegibly (do
      let place ← parentOf l
      modify (·.remove place.1 place.2) : Op Unit) :=
    (failsLegibly_parentOf l).bind fun _ => failsLegibly_modify _
  refine (failsLegibly_namesOf l).bind fun names => ?_
  dsimp only
  split
  · exact (failsLegibly_refused rfl).bind fun _ => hremove
  · exact hremove

theorem failsLegibly_makeRoom (node : Node) (l : Location) : FailsLegibly (makeRoom node l) := by
  refine (failsLegibly_look l).bind fun found => ?_
  split
  · exact .pure _
  · split
    · exact failsLegibly_refused rfl
    · split
      · exact failsLegibly_refused rfl
      · exact failsLegibly_modify _
  · split
    · exact failsLegibly_refused rfl
    · exact failsLegibly_modify _

theorem failsLegibly_rename (source target : Location) : FailsLegibly (rename source target) := by
  refine (failsLegibly_look source).bind fun found => ?_
  split
  · exact failsLegibly_refused rfl
  · split
    · exact .pure _
    · split
      · refine .throw (FsError.legible_of_text? rfl fun heq => ?_)
        simp at heq
      · exact (failsLegibly_parentOf source).bind fun _ => (failsLegibly_holderOf target).bind fun _ =>
          (failsLegibly_makeRoom _ target).bind fun _ => (failsLegibly_modify _).bind fun _ =>
            (failsLegibly_modify _).bind fun _ => failsLegibly_modify _

theorem failsLegibly_openFile (l : Location) (mode : OpenMode) : FailsLegibly (openFile l mode) := by
  have hprepare : FailsLegibly (prepare l mode) := by
    refine (failsLegibly_look l).bind fun found => ?_
    split
    · exact failsLegibly_refused rfl
    · split
      · exact failsLegibly_refused rfl
      · exact .pure _
    · split
      · exact failsLegibly_write l []
      · exact failsLegibly_refused rfl
  have hopened : FailsLegibly (do pure (OpenFile.mk l (← read l) 0 mode false) : Op OpenFile) :=
    (failsLegibly_read l).bind fun _ => .pure _
  refine hprepare.bind fun _ => ?_
  dsimp only
  split
  · exact (failsLegibly_write l []).bind fun _ => hopened
  · exact hopened

/-- Every call that is refused names a location, or says that the root has no parent. -/
theorem failsLegibly_call {α : Type} (c : Call OpenFile α) : FailsLegibly (backend.call c) := by
  change FailsLegibly (call c)
  cases c with
  | read path => exact failsLegibly_read _
  | write path data => exact failsLegibly_write _ data
  | create path => exact failsLegibly_write _ []
  | delete path => exact failsLegibly_delete _
  | probe path => exact (failsLegibly_look _).bind fun _ => .pure _
  | stat path => exact failsLegibly_stat _
  | list path => exact failsLegibly_list _
  | createDir path => exact failsLegibly_createDir _
  | removeDir path => exact failsLegibly_removeDir _
  | rename source target => exact failsLegibly_rename _ _
  | openFile path mode => exact failsLegibly_openFile _ mode

/-! ## Jobs and open files -/

/-- In a well-formed store the path without a text is the root, and the names that are listed are proper. -/
theorem backendTo_legibleOn (depth : Store → Nat) : (backendTo depth).LegibleOn Store.WellFormed where
  native _ := rfl
  call c := .of_keeps (keeps_call c) (failsLegibly_call c)
  named {s t path entries} hs hlist e he := by
    have hrun : backend.run (.list path) s = .ok entries t := Run.ofStep_ok hlist
    have hname : IsName e.name := (names_of_answer hs hrun).2 e he
    exact fun heq => hname.ne_empty (congrArg String.toList heq)
  rooted {s t path record} hs hempty hstat := by
    have hrun : backend.run (.stat path) s = .ok record t := Run.ofStep_ok hstat
    obtain ⟨-, node, hnode, rfl⟩ := found_of_stat hrun
    obtain ⟨signs⟩ := path
    obtain rfl : signs = [] := Path.text_eq_empty_iff.mp hempty
    have hroot : (Path.mk []).location = [] := rfl
    obtain ⟨ino, names, hdir⟩ := hs.root
    rw [hroot, hdir] at hnode
    cases hnode
    rfl

/-- Of the jobs only a move fails for a cause that cannot be read back, and only if its target has no text. -/
theorem failsLegibly_perform (depth : Store → Nat) (j : Job) :
    FailsFor Store.WellFormed (Stop.Meets fun e => e.Legible ∨
      ∃ source target conflict, j = .moveTree source target conflict ∧ Backend.Unnamed target conflict e)
      (perform depth j) := by
  have hb := backendTo_legibleOn depth
  cases j with
  | copy source target => exact (hb.copy source target).mono_run fun _ => .inl
  | removeTree path => exact (hb.removeTree path).mono_run fun _ => .inl
  | moveTree source target conflict =>
    exact (hb.moveTree source target conflict).mono_run fun _ he =>
      he.imp_right fun hunnamed => ⟨source, target, conflict, rfl, hunnamed⟩

/-- Bringing an open file into the store is refused as a write is. -/
theorem failsLegibly_sync : FailsLegibly backend.sync := by
  refine FailsFor.always_iff.mpr fun (file, s) e t h => ?_
  change sync (file, s) = .error e t at h
  unfold sync at h
  dsimp only at h
  split at h
  · cases hwrite : write file.location file.data s with
    | ok _ u =>
      rw [hwrite] at h
      cases h
    | error e' u =>
      rw [hwrite] at h
      cases h
      exact FailsFor.always_iff.mp (failsLegibly_write file.location file.data) s e u hwrite
  · cases h

theorem failsLegibly_statFile : FailsLegibly backend.statFile :=
  FailsFor.bind (fun _ _ => trivial) fun held => (failsLegibly_stat held.1.location).zoom

namespace Session

/-- What is answered in a session that can come about. Each entry that is listed has a name that is not empty
and holds no slash; its name passes the check, and it comes back from its written form, exactly if the name
holds neither a null character nor a backslash. Every failure comes back, be it of a call, of a job, of bringing
an open file into the store or of asking what is at its location; only a move to the path without a text can be
refused with that text, because there is something already. -/
theorem Reachable.answers_come_back {a : Session} (ha : a.Reachable) :
    (∀ path entries t, (backend.call (.list path)).outcome a.store = (.ok entries, t) → ∀ e ∈ entries,
      e.name ≠ "" ∧ '/' ∉ e.name.toList ∧
      (Entry.checkName e.name = .ok () ↔ '\x00' ∉ e.name.toList ∧ '\\' ∉ e.name.toList) ∧
      (Entry.ofJson e.toJson = .ok e ↔ '\x00' ∉ e.name.toList ∧ '\\' ∉ e.name.toList)) ∧
    (∀ {α : Type} (c : Call OpenFile α) e t, (backend.call c).outcome a.store = (.error e, t) →
      FsError.ofJson e.toJson = .ok e) ∧
    (∀ depth j e t, (perform depth j).outcome a.store = some (.error e, t) →
      FsError.ofJson e.toJson = .ok e ∨
      ∃ source target conflict, j = .moveTree source target conflict ∧ target.text = "" ∧
        (conflict = .refuse ∧ e = .alreadyExists "" ∨ conflict ≠ .refuse ∧ e = .isADirectory "")) ∧
    ∀ file ∈ a.files, ∀ e t,
      backend.sync.outcome (file, a.store) = (.error e, t) ∨ backend.statFile.outcome (file, a.store) = (.error e, t) →
        FsError.ofJson e.toJson = .ok e := by
  have hs : a.store.WellFormed := ha.sound.store
  have hread : ∀ {e : FsError}, e.Legible → FsError.ofJson e.toJson = .ok e := FsError.read_toJson Json.constant_str
  refine ⟨fun path entries t h e he => ?_, fun c e t h => ?_, fun depth j e t h => ?_, fun file _ e t h => ?_⟩
  · have hrun : backend.run (.list path) a.store = .ok entries t := Run.ofStep_ok (Step.eq_ok_of_outcome h)
    have hname : IsName e.name := (names_of_answer hs hrun).2 e he
    have hcheck := Entry.checkName_iff hname
    refine ⟨fun heq => hname.ne_empty (congrArg String.toList heq), hname.no_slash, hcheck, ?_⟩
    rw [← hcheck]
    exact ⟨Entry.checkName_of_ofJson, Entry.ofJson_toJson⟩
  · exact hread ((failsLegibly_call c).step_outcome trivial h)
  · exact ((failsLegibly_perform depth j).run_outcome hs h).imp_left hread
  · rcases h with h | h
    · exact hread (failsLegibly_sync.step_outcome trivial h)
    · exact hread (failsLegibly_statFile.step_outcome trivial h)

/-- Of two files one has a name that is refused when it is read. -/
theorem Reachable.answers_come_back_listed :
    ∃ a : Session, a.Reachable ∧
      (backend.call (.list ⟨"/"⟩)).outcome a.store = (.ok [⟨"a\\b", .file⟩, ⟨"f", .file⟩], a.store) ∧
      Entry.ofJson (Entry.toJson ⟨"f", .file⟩) = .ok ⟨"f", .file⟩ ∧
      ¬ Entry.ofJson (Entry.toJson ⟨"a\\b", .file⟩) = .ok ⟨"a\\b", .file⟩ := by
  obtain ⟨a, ha, hlist⟩ : ∃ a : Session, a.Reachable ∧
      (backend.call (.list ⟨"/"⟩)).outcome a.store = (.ok [⟨"a\\b", .file⟩, ⟨"f", .file⟩], a.store) := by
    have ha : Reachable ⟨_, _⟩ :=
      .step (.step .start (.call (.write ⟨"/a\\b"⟩ [7]) _ _)) (.call (.write ⟨"/f"⟩ [8]) _ _)
    exact ⟨_, ha, by decide +kernel⟩
  have hcomes := ha.answers_come_back.1 ⟨"/"⟩ _ _ hlist
  exact ⟨a, ha, hlist, (hcomes ⟨"f", .file⟩ (by simp)).2.2.2.mpr (by decide),
    mt (hcomes ⟨"a\\b", .file⟩ (by simp)).2.2.2.mp (by decide)⟩

/-- Not everything comes back: a file can have a name that is refused when it is read, and a move to the path
without a text is refused with that text, which is refused when it is read. -/
theorem not_all_come_back :
    (∃ a : Session, a.Reachable ∧
      (backend.call (.list ⟨"/"⟩)).outcome a.store = (.ok [⟨"a\\b", .file⟩], a.store) ∧
      Entry.checkName "a\\b" = .error (.invalidPath "entry name cannot contain path separators") ∧
      Entry.ofJson (Entry.toJson ⟨"a\\b", .file⟩)
        = .error (.refused "Invalid path: entry name cannot contain path separators")) ∧
    ∃ a : Session, a.Reachable ∧
      (perform backend.depth (.moveTree ⟨"/f"⟩ ⟨""⟩ .refuse)).outcome a.store
        = some (.error (.alreadyExists ""), a.store) ∧
      FsError.ofJson (FsError.toJson (.alreadyExists "")) = .error (.refused "error message must not be empty") := by
  have hlisted : Reachable ⟨_, _⟩ := .step .start (.call (.write ⟨"/a\\b"⟩ [7]) _ _)
  have hmoved : Reachable ⟨_, _⟩ := .step .start (.call (.write ⟨"/f"⟩ [7]) _ _)
  exact ⟨⟨_, hlisted, by decide +kernel, by decide +kernel, by decide +kernel⟩,
    ⟨_, hmoved, by decide +kernel, by decide +kernel⟩⟩

end Session

end Memory

end FileProvider
