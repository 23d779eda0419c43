import FileProvider.Proofs.Memory.Presence
import FileProvider.Proofs.Service.Move
import FileProvider.Proofs.Uri.Place
import FileProvider.Service.Listing

/-!
# The URIs that a service hands out

A service makes the URIs that it answers with from the URI that it was given and a name, and looks at neither
again. A URI that is valid leads to the entry that was made, renamed or moved, because the operation used the
same path. A URI in a listing leads to the entry it was listed for only if the path of a child goes on from
that of its parent.
-/

set_option autoImplicit false

namespace FileProvider

/-- No failure has the code of success. -/
theorem ServiceError.code_ne_success (e : ServiceError) : e.code ≠ StatusCode.success := by
  cases e with
  | platform cause => cases cause <;> simp [code, FsError.code, StatusCode.success]
  | _ => simp [code, StatusCode.success]

/-- An answer that reports success is that of a run that gave the value. -/
theorem Reply.eq_ok_of_success {σ α : Type} {x : Run σ ServiceError α} {s t : σ} {empty a : α}
    (h : ofRun empty x s = some (success a, t)) : x s = .ok a t := by
  unfold ofRun Run.outcome at h
  cases hx : x s with
  | ok b u =>
    rw [hx] at h
    obtain ⟨hb, rfl⟩ := Prod.mk.inj (Option.some.inj h)
    cases hb
    rfl
  | error e u =>
    rw [hx] at h
    cases e with
    | exhausted => cases h
    | failed e =>
      obtain ⟨he, _⟩ := Prod.mk.inj (Option.some.inj h)
      exact absurd (Reply.mk.inj he).2 e.code_ne_success

namespace Service

open Memory

variable {σ η α : Type} {S T : Service Store OpenFile} {uri u : String}

/-! ## What a success says about its parts -/

theorem check_eq_ok {S T : Service σ η} (h : check uri S = .ok () T) :
    Uri.isAddress uri = true ∧ S = T := by
  unfold check at h
  split at h
  · next haddress =>
    cases h
    exact ⟨haddress, rfl⟩
  · cases h

theorem passOn_eq_ok {S T : Service σ η} {x : Run σ FsError α} {a : α} (h : passOn x S = .ok a T) :
    ∃ fs, x S.fs = .ok a fs ∧ { S with fs := fs } = T := by
  rw [passOn_apply] at h
  cases hx : x S.fs with
  | ok b fs =>
    rw [hx] at h
    cases h
    exact ⟨fs, rfl, rfl⟩
  | error e fs =>
    rw [hx] at h
    cases e <;> cases h

theorem reportAs_eq_ok {S T : Service σ η} {x : Run σ FsError α} {a : α} (h : reportAs x S = .ok a T) :
    ∃ fs, x S.fs = .ok a fs ∧ { S with fs := fs } = T := by
  rw [reportAs_apply] at h
  cases hx : x S.fs with
  | ok b fs =>
    rw [hx] at h
    cases h
    exact ⟨fs, rfl, rfl⟩
  | error e fs =>
    rw [hx] at h
    cases e <;> cases h

/-! ## Whether there is an entry -/

/-- Whether there is an entry at the path that a URI addresses. -/
def finds (S : Service Store OpenFile) (uri : String) : Bool :=
  (S.fs.find? (Path.mk (Uri.pathOf S.bundle uri)).location).isSome

/-- Whether a URI is accessible: a valid one if there is an entry; one that is not valid is refused. -/
theorem access_reply (S : Service Store OpenFile) (uri : String) :
    Reply.ofRun false (access backend uri) S
      = some (if Uri.isAddress uri then .success (S.finds uri) else ⟨false, 14300002⟩, S) := by
  by_cases haddress : Uri.isAddress uri = true
  · rw [if_pos haddress]
    refine Reply.ofRun_ok ?_ false
    rw [access, bind_apply, check_apply haddress]
    dsimp only
    rw [bind_apply, pathOf_apply]
    dsimp only
    rw [passOn_apply, ← backendTo_depth, run_probe]
    rfl
  · rw [if_neg haddress]
    refine Reply.ofRun_failed (e := .invalidUri uri) ?_ false
    rw [access, bind_apply, check, if_neg haddress]
    rfl

/-! ## What was made is there -/

/-- A file is created by opening it where there is nothing, and let go as it was opened. -/
theorem createFile_eq_ok {parent name : String} (h : createFile backend parent name S = .ok u T) :
    Uri.isAddress parent = true ∧ u = Uri.child parent name ∧ S.finds u = false ∧
      ∃ file fs, backend.run (.openFile ⟨Uri.pathOf S.bundle u⟩ .forCreation) S.fs = .ok file fs ∧
        T = { S with fs := fs } := by
  obtain ⟨_, S₁, hcheck, h⟩ := bind_eq_ok h
  obtain ⟨haddress, rfl⟩ := check_eq_ok hcheck
  rw [bind_apply, pathOf_apply] at h
  dsimp only at h
  obtain ⟨there, S₂, hprobe, h⟩ := bind_eq_ok h
  rw [passOn_apply, ← backendTo_depth, run_probe] at hprobe
  obtain ⟨hthere, rfl⟩ := EStateM.Result.ok.inj hprobe
  cases there with
  | true => cases h
  | false =>
    obtain ⟨file, S₃, hopen, h⟩ := bind_eq_ok h
    obtain ⟨fs, hfs, rfl⟩ := passOn_eq_ok hopen
    obtain ⟨rfl, rfl⟩ := EStateM.Result.ok.inj h
    refine ⟨haddress, rfl, hthere, file, fs, hfs, ?_⟩
    change { S with fs := backend.release file fs } = _
    rw [(found_of_openFile hfs).2]

/-- A directory is created by the filesystem. -/
theorem createDir_eq_ok {parent name : String} (h : createDir backend parent name S = .ok u T) :
    Uri.isAddress parent = true ∧ u = Uri.child parent name ∧
      ∃ fs, backend.run (.createDir ⟨Uri.pathOf S.bundle u⟩) S.fs = .ok () fs ∧ T = { S with fs := fs } := by
  obtain ⟨_, S₁, hcheck, h⟩ := bind_eq_ok h
  obtain ⟨haddress, rfl⟩ := check_eq_ok hcheck
  rw [bind_apply, pathOf_apply] at h
  dsimp only at h
  obtain ⟨_, S₃, hcreate, h⟩ := bind_eq_ok h
  obtain ⟨rfl, rfl⟩ := EStateM.Result.ok.inj h
  obtain ⟨fs, hfs, rfl⟩ := passOn_eq_ok hcreate
  exact ⟨haddress, rfl, fs, hfs, rfl⟩

theorem createFile_finds {parent name : String} (h : createFile backend parent name S = .ok u T) :
    T.finds u = true := by
  obtain ⟨-, -, -, file, fs, hfs, rfl⟩ := createFile_eq_ok h
  exact (found_of_openFile hfs).1

theorem createDir_finds {parent name : String} (h : createDir backend parent name S = .ok u T) :
    T.finds u = true := by
  obtain ⟨-, -, fs, hfs, rfl⟩ := createDir_eq_ok h
  exact found_of_createDir hfs

theorem rename_finds {name : String} (hwf : S.fs.WellFormed)
    (h : rename backend uri name S = .ok u T) : T.finds u = true := by
  obtain ⟨_, S₁, hcheck, h⟩ := bind_eq_ok h
  obtain ⟨_, rfl⟩ := check_eq_ok hcheck
  rw [bind_apply, pathOf_apply] at h
  dsimp only at h
  rw [bind_apply, pathOf_apply] at h
  dsimp only at h
  obtain ⟨_, S₄, hrename, h⟩ := bind_eq_ok h
  obtain ⟨hu, hT⟩ := EStateM.Result.ok.inj h
  subst hu hT
  obtain ⟨fs, hfs, rfl⟩ := passOn_eq_ok hrename
  exact found_of_rename hwf hfs

/-- A move hands out a valid URI, and the entry is there unless the old and the new path are the same and it was
not there before. -/
theorem moveFile_finds {source target : String} (hwf : S.fs.WellFormed)
    (h : moveFile backend source target S = .ok u T) :
    Uri.isAddress u = true ∧
      T.finds u = (S.movedFrom source ≠ S.movedTo source target || S.finds source) := by
  obtain ⟨hsource, htarget⟩ : Uri.isAddress source = true ∧ Uri.isAddress target = true := by
    obtain ⟨_, S₁, hcheck, h⟩ := bind_eq_ok h
    obtain ⟨hsource, rfl⟩ := check_eq_ok hcheck
    obtain ⟨_, S₂, hcheck, _⟩ := bind_eq_ok h
    exact ⟨hsource, (check_eq_ok hcheck).1⟩
  have haddress : Uri.isAddress (Uri.child target (Uri.lastSegment source)) = true :=
    Uri.isAddress_child htarget (Uri.no_slash_lastSegment source) (Uri.legal_lastSegment hsource)
  by_cases heq : S.movedFrom source = S.movedTo source target
  · rw [moveFile_same backend hsource htarget heq] at h
    obtain ⟨rfl, rfl⟩ := EStateM.Result.ok.inj h
    refine ⟨haddress, ?_⟩
    have hfound : S.finds source = (S.fs.find? (S.movedTo source target).location).isSome := by
      rw [← heq]
      rfl
    rw [hfound, decide_eq_false (not_not_intro heq), Bool.false_or]
    rfl
  · rw [← backendTo_depth] at h
    by_cases hpasses : S.Passes source target
    · rw [moveFile_of_passes hsource htarget heq hpasses] at h
      obtain ⟨_, S₁, htransfer, h⟩ := bind_eq_ok h
      obtain ⟨rfl, rfl⟩ := EStateM.Result.ok.inj h
      refine ⟨haddress, ?_⟩
      rw [decide_eq_true heq, Bool.true_or]
      cases hdevice : S.isCrossDevice source target with
      | false =>
        rw [transfer_within hdevice] at htransfer
        obtain ⟨fs, hfs, rfl⟩ := passOn_eq_ok htransfer
        exact found_of_rename hwf hfs
      | true =>
        rw [transfer_across hdevice] at htransfer
        obtain ⟨fs, hfs, rfl⟩ := reportAs_eq_ok htransfer
        exact found_of_moveTree hwf hfs
    · obtain ⟨what, hwhat⟩ := moveFile_of_not_passes hsource htarget heq hpasses
      cases h.symm.trans hwhat

/-! ## Listings -/

/-- Whether a document is that of one of some entries of a directory, as it is now. -/
def Documents (S : Service Store OpenFile) (uri : String) (path : Path) (entries : List Entry)
    (d : Document) : Prop :=
  ∃ entry ∈ entries, ∃ node, S.fs.find? (path.join entry.name).location = some node ∧
    Document.ofStat (Uri.child uri entry.name) entry.name node.stat = d

theorem document_documents {path : Path} {entry : Entry} {d : Document}
    (h : document backend uri path entry S = .ok d T) : S = T ∧ S.Documents uri path [entry] d := by
  obtain ⟨record, S₁, hstat, h⟩ := bind_eq_ok h
  obtain ⟨rfl, rfl⟩ := EStateM.Result.ok.inj h
  obtain ⟨fs, hfs, rfl⟩ := reportAs_eq_ok hstat
  obtain ⟨rfl, node, hnode, rfl⟩ := found_of_stat hfs
  exact ⟨rfl, entry, List.mem_singleton_self entry, node, hnode, rfl⟩

/-- A listing changes nothing, and each document in it is that of one of the entries. -/
theorem window_documents {path : Path} {filter : Option Filter} {offset stop position : Nat}
    {entries : List Entry} {docs : List Document}
    (h : window backend uri path filter offset stop position entries S = .ok docs T) :
    S = T ∧ ∀ d ∈ docs, S.Documents uri path entries d := by
  induction entries generalizing position docs S T with
  | nil =>
    cases h
    exact ⟨rfl, fun _ hd => absurd hd List.not_mem_nil⟩
  | cons entry rest ih =>
    have hlater : ∀ {d}, S.Documents uri path rest d → S.Documents uri path (entry :: rest) d :=
      fun ⟨other, hother, hd⟩ => ⟨other, List.mem_cons_of_mem _ hother, hd⟩
    rw [window] at h
    split at h
    · cases h
      exact ⟨rfl, fun _ hd => absurd hd List.not_mem_nil⟩
    · split at h
      · obtain ⟨rfl, hdocs⟩ := ih h
        exact ⟨rfl, fun d hd => hlater (hdocs d hd)⟩
      · obtain ⟨d₀, S₁, hdoc, hafter⟩ := bind_eq_ok h
        obtain ⟨rfl, first, hfirst, hd₀⟩ := document_documents hdoc
        obtain rfl := List.mem_singleton.mp hfirst
        by_cases haccepts : filter.all (·.accepts d₀) = true
        · rw [if_pos haccepts] at hafter
          obtain ⟨more, S₂, hmore, hafter⟩ := bind_eq_ok hafter
          obtain ⟨rfl, hdocs⟩ := ih hmore
          obtain ⟨rfl, rfl⟩ := EStateM.Result.ok.inj hafter
          refine ⟨rfl, fun d hd => ?_⟩
          have hd : d = d₀ ∨ d ∈ more := by
            split at hd
            · exact List.mem_cons.mp hd
            · exact .inr hd
          rcases hd with rfl | hd
          · exact ⟨first, List.mem_cons_self, hd₀⟩
          · exact hlater (hdocs d hd)
        · rw [if_neg haccepts] at hafter
          obtain ⟨rfl, hdocs⟩ := ih hafter
          exact ⟨rfl, fun d hd => hlater (hdocs d hd)⟩

/-- A listing changes nothing, and each document in it is that of an entry with a proper name. -/
theorem listFiles_documents {offset count : Nat} {filter : Option Filter} {docs : List Document}
    (hwf : S.fs.WellFormed) (h : listFiles backend uri offset count filter S = .ok docs T) :
    Uri.isAddress uri = true ∧ S = T ∧ ∀ d ∈ docs, ∃ name node, IsName name ∧
      S.fs.find? ((Path.mk (Uri.pathOf S.bundle uri)).location ++ [name]) = some node ∧
      Document.ofStat (Uri.child uri name) name node.stat = d := by
  obtain ⟨_, S₁, hcheck, h⟩ := bind_eq_ok h
  obtain ⟨haddress, rfl⟩ := check_eq_ok hcheck
  rw [bind_apply, pathOf_apply] at h
  dsimp only at h
  obtain ⟨record, S₂, hstat, h⟩ := bind_eq_ok h
  obtain ⟨fs, hfs, rfl⟩ := passOn_eq_ok hstat
  obtain ⟨rfl, _⟩ := found_of_stat hfs
  split at h
  · cases h
  · obtain ⟨entries, S₃, hlist, h⟩ := bind_eq_ok h
    obtain ⟨fs, hfs, rfl⟩ := reportAs_eq_ok hlist
    obtain ⟨rfl, hnames⟩ := names_of_answer hwf hfs
    obtain ⟨rfl, hdocs⟩ := window_documents h
    refine ⟨haddress, rfl, fun d hd => ?_⟩
    obtain ⟨entry, hentry, node, hnode, hd⟩ := hdocs d hd
    have hname := hnames entry hentry
    rw [Path.location_join _ hname] at hnode
    exact ⟨entry.name, node, hname, hnode, hd⟩

/-- What is said about the entry at a valid URI. -/
theorem fileInfo_apply {node : Node} (haddress : Uri.isAddress uri = true)
    (hnode : S.fs.find? (Path.mk (Uri.pathOf S.bundle uri)).location = some node) :
    fileInfo backend uri S
      = .ok (Document.ofStat uri (Uri.lastSegment (Uri.pathOf S.bundle uri)) node.stat) S := by
  rw [fileInfo, bind_apply, check_apply haddress]
  dsimp only
  rw [bind_apply]
  change (passOn (backend.run (.stat ⟨Uri.pathOf S.bundle uri⟩)) >>= _ : Op Store OpenFile Document) S = _
  rw [bind_apply, passOn_apply, ← backendTo_depth, run_stat hnode]
  rfl

/-- What a listing says about an entry is what is said about its URI, if that is valid and its path goes on from
that of the directory. -/
theorem fileInfo_listed {offset count : Nat} {filter : Option Filter} {docs : List Document} {d : Document}
    {v : Uri} (hwf : S.fs.WellFormed) (h : listFiles backend uri offset count filter S = .ok docs T)
    (hd : d ∈ docs) (haddress : Uri.isAddress d.uri = true) (hsplit : Uri.split? uri = some v)
    (hcarries : Uri.Carries S.bundle v.path.toList d.fileName) :
    fileInfo backend d.uri T = .ok d T := by
  obtain ⟨_, rfl, hdocs⟩ := listFiles_documents hwf h
  obtain ⟨name, node, hname, hnode, rfl⟩ := hdocs d hd
  change Uri.isAddress (Uri.child uri name) = true at haddress
  change Uri.Carries S.bundle v.path.toList name at hcarries
  rw [← Uri.location_child hsplit hname hcarries] at hnode
  change fileInfo backend (Uri.child uri name) S = _
  rw [fileInfo_apply haddress hnode, Uri.lastSegment_pathOf_child hsplit hname hcarries]

/-! ## The URIs -/

/-- In every store that can come about, a URI that a service hands out can be used. The URI of what was created
or renamed is accessible if it is valid, that of what was moved always, unless a move from a path to itself found
nothing there, and what is listed for a valid URI is what is said about it, if its path goes on from that of the
directory. -/
theorem handed_out {a : Session} (ha : a.Reachable) {S : Service Store OpenFile} (hfs : S.fs = a.store) :
    (∀ uri name u T,
      Reply.ofRun "" (createFile backend uri name) S = some (.success u, T) ∨
        Reply.ofRun "" (createDir backend uri name) S = some (.success u, T) ∨
        Reply.ofRun "" (rename backend uri name) S = some (.success u, T) →
      Reply.ofRun false (access backend u) T
        = some (if Uri.isAddress u then .success true else ⟨false, 14300002⟩, T)) ∧
    (∀ source target u T,
      Reply.ofRun "" (moveFile backend source target) S = some (.success u, T) →
      Reply.ofRun false (access backend u) T
        = some (.success (S.movedFrom source ≠ S.movedTo source target || S.finds source), T)) ∧
    ∀ uri offset count filter docs T,
      Reply.ofRun [] (listFiles backend uri offset count filter) S = some (.success docs, T) →
      ∀ d ∈ docs, Uri.isAddress d.uri = true →
        (∀ v, Uri.split? uri = some v → Uri.Carries S.bundle v.path.toList d.fileName) →
        Reply.ofRun .empty (fileInfo backend d.uri) T = some (.success d, T) := by
  have hwf : S.fs.WellFormed := hfs ▸ ha.sound.store
  refine ⟨fun uri name u T h => ?_, fun source target u T h => ?_,
    fun uri offset count filter docs T h d hd haddress hcarries => ?_⟩
  · have hfound : T.finds u = true := by
      rcases h with h | h | h
      · exact createFile_finds (Reply.eq_ok_of_success h)
      · exact createDir_finds (Reply.eq_ok_of_success h)
      · exact rename_finds hwf (Reply.eq_ok_of_success h)
    rw [access_reply, hfound]
  · obtain ⟨haddress, hfound⟩ := moveFile_finds hwf (Reply.eq_ok_of_success h)
    rw [access_reply, if_pos haddress, hfound]
  · have hlist := Reply.eq_ok_of_success h
    obtain ⟨v, hv⟩ := Uri.exists_split?_of_isAddress (listFiles_documents hwf hlist).1
    exact Reply.ofRun_ok (fileInfo_listed hwf hlist hd haddress hv (hcarries v hv)) .empty

/-- The store after some calls. -/
def storeAfter (calls : List (Call OpenFile Unit)) : Store :=
  calls.foldl (fun s c => ((backend.call c).outcome s).2) Store.empty

theorem reachable_storeAfter (calls : List (Call OpenFile Unit)) :
    Session.Reachable ⟨storeAfter calls, []⟩ := by
  have hgo : ∀ (calls : List (Call OpenFile Unit)) (s : Store), Session.Reachable ⟨s, []⟩ →
      Session.Reachable ⟨calls.foldl (fun s c => ((backend.call c).outcome s).2) s, []⟩ := by
    intro calls
    induction calls with
    | nil => exact fun _ h => h
    | cons c calls ih => exact fun s h => ih _ (h.step (.call c s []))
  exact hgo calls Store.empty .start

/-- The state after an operation whose answer is known. -/
theorem exists_reply {x : Op Store OpenFile α} {empty : α} {r : Reply α}
    (h : (Reply.ofRun empty x S).map Prod.fst = some r) : ∃ T, Reply.ofRun empty x S = some (r, T) := by
  obtain ⟨⟨_, T⟩, hrun, rfl⟩ := Option.map_eq_some_iff.mp h
  exact ⟨T, hrun⟩

/-- A file that was created, one that was moved, and one that was listed; the bundle stands in two of the URIs. -/
theorem handed_out_files :
    ∃ S T₁ T₂ T₃ : Service Store OpenFile,
      Reply.ofRun "" (createFile backend "datashare:///app/r" "g") S
        = some (.success "datashare:///app/r/g", T₁) ∧
      Reply.ofRun false (access backend "datashare:///app/r/g") T₁ = some (.success true, T₁) ∧
      Reply.ofRun "" (moveFile backend "file:///r/f" "file:///app/") S
        = some (.success "file:///app/f", T₂) ∧
      Reply.ofRun false (access backend "file:///app/f") T₂ = some (.success true, T₂) ∧
      Reply.ofRun [] (listFiles backend "file:///app/r/" 0 9 none) S
        = some (.success [⟨"file:///app/r/f", "f", 13, 1, 0, ""⟩], T₃) ∧
      Reply.ofRun .empty (fileInfo backend "file:///app/r/f") T₃
        = some (.success ⟨"file:///app/r/f", "f", 13, 1, 0, ""⟩, T₃) := by
  let s := storeAfter [.createDir ⟨"/r"⟩, .write ⟨"/r/f"⟩ [7]]
  obtain ⟨hmade, hmoved, hlisted⟩ := handed_out (reachable_storeAfter _) (S := start "app" s) rfl
  obtain ⟨T₁, hcreate⟩ : ∃ T, Reply.ofRun "" (createFile backend "datashare:///app/r" "g") (start "app" s)
      = some (.success "datashare:///app/r/g", T) := exists_reply (by decide +kernel)
  obtain ⟨T₂, hmove⟩ : ∃ T, Reply.ofRun "" (moveFile backend "file:///r/f" "file:///app/") (start "app" s)
      = some (.success "file:///app/f", T) := exists_reply (by decide +kernel)
  obtain ⟨T₃, hlist⟩ : ∃ T, Reply.ofRun [] (listFiles backend "file:///app/r/" 0 9 none) (start "app" s)
      = some (.success [⟨"file:///app/r/f", "f", 13, 1, 0, ""⟩], T) := exists_reply (by decide +kernel)
  have haccess := hmoved _ _ _ _ hmove
  have hthere : (start "app" s).finds "file:///r/f" = true := by decide +kernel
  rw [hthere, Bool.or_true] at haccess
  refine ⟨start "app" s, T₁, T₂, T₃, hcreate, hmade _ _ _ _ (.inl hcreate), hmove, haccess, hlist,
    hlisted _ _ _ _ _ _ hlist _ List.mem_cons_self (by decide +kernel) fun v hv => ?_⟩
  have hsplit : Uri.split? "file:///app/r/" = some ⟨"file", "", "/app/r/"⟩ := by decide +kernel
  obtain rfl := Option.some.inj (hv.symm.trans hsplit)
  decide +kernel

/-- The URIs that are handed out and cannot be used: one with a blank in the name, one of an entry that was not
there to be moved from its path to the same path, and in listings one of a host by itself and one of an entry
whose name is that of the bundle. -/
theorem handed_out_unusable :
    ∃ (s : Store) (S : Service Store OpenFile), Session.Reachable ⟨s, []⟩ ∧ S.fs = s ∧
      (∃ T, Reply.ofRun "" (createFile backend "datashare:///r" "a b") S
          = some (.success "datashare:///r/a b", T) ∧
        Reply.ofRun false (access backend "datashare:///r/a b") T = some (⟨false, 14300002⟩, T)) ∧
      (∃ T, Reply.ofRun "" (moveFile backend "file:///x" "file:///") S = some (.success "file:///x", T) ∧
        Reply.ofRun false (access backend "file:///x") T = some (.success false, T)) ∧
      (∃ T T', Reply.ofRun [] (listFiles backend "file://host" 0 9 none) S
          = some (.success [⟨"file://host/n", "n", 13, 0, 0, ""⟩], T) ∧
        Reply.ofRun .empty (fileInfo backend "file://host/n") T = some (⟨.empty, 13900002⟩, T')) ∧
      ∃ T T', Reply.ofRun [] (listFiles backend "file:///r" 0 9 none) S
          = some (.success [⟨"file:///r/app", "app", 13, 0, 0, ""⟩], T) ∧
        Reply.ofRun .empty (fileInfo backend "file:///r/app") T
          = some (.success ⟨"file:///r/app", "r", 14, 0, 0, ""⟩, T') := by
  let s := storeAfter [.createDir ⟨"/r"⟩, .create ⟨"/r/app"⟩, .createDir ⟨"/host"⟩, .create ⟨"/host/n"⟩]
  have hreachable : Session.Reachable ⟨s, []⟩ := reachable_storeAfter _
  have hwf : s.WellFormed := hreachable.sound.store
  refine ⟨s, start "app" s, hreachable, rfl, ?_, ?_, ?_, ?_⟩
  · obtain ⟨T, hcreate⟩ : ∃ T, Reply.ofRun "" (createFile backend "datashare:///r" "a b") (start "app" s)
        = some (.success "datashare:///r/a b", T) := exists_reply (by decide +kernel)
    have hillegal : Uri.isAddress "datashare:///r/a b" = false := by decide +kernel
    exact ⟨T, hcreate, by rw [access_reply, hillegal]; rfl⟩
  · refine ⟨start "app" s, Reply.ofRun_ok (moveFile_same backend (by decide +kernel) (by decide +kernel)
      (by decide +kernel)) "", ?_⟩
    have hvalid : Uri.isAddress "file:///x" = true := by decide +kernel
    have hnone : (start "app" s).finds "file:///x" = false := by decide +kernel
    rw [access_reply, hvalid, hnone]
    rfl
  · obtain ⟨T, hlist⟩ : ∃ T, Reply.ofRun [] (listFiles backend "file://host" 0 9 none) (start "app" s)
        = some (.success [⟨"file://host/n", "n", 13, 0, 0, ""⟩], T) := exists_reply (by decide +kernel)
    obtain ⟨_, rfl, _⟩ := listFiles_documents hwf (Reply.eq_ok_of_success hlist)
    obtain ⟨T', hinfo⟩ : ∃ T', Reply.ofRun .empty (fileInfo backend "file://host/n") (start "app" s)
        = some (⟨.empty, 13900002⟩, T') := exists_reply (by decide +kernel)
    exact ⟨_, T', hlist, hinfo⟩
  · obtain ⟨T, hlist⟩ : ∃ T, Reply.ofRun [] (listFiles backend "file:///r" 0 9 none) (start "app" s)
        = some (.success [⟨"file:///r/app", "app", 13, 0, 0, ""⟩], T) := exists_reply (by decide +kernel)
    obtain ⟨_, rfl, _⟩ := listFiles_documents hwf (Reply.eq_ok_of_success hlist)
    obtain ⟨T', hinfo⟩ : ∃ T', Reply.ofRun .empty (fileInfo backend "file:///r/app") (start "app" s)
        = some (.success ⟨"file:///r/app", "r", 14, 0, 0, ""⟩, T') := exists_reply (by decide +kernel)
    exact ⟨_, T', hlist, hinfo⟩

end Service

end FileProvider
