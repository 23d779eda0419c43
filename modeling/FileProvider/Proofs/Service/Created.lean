import FileProvider.Proofs.Service.Listing
import FileProvider.Proofs.Uri.Naming

/-!
# What was created

A file and a directory are created in different ways: one is looked for and then opened, the other one is made by
the filesystem at once. Either way a success adds one node without content to the directory, a second attempt is
refused, and deleting undoes it. Whether other requests find that node depends on one thing more, namely that the
URI of the child leads to the child.
-/

set_option autoImplicit false

namespace FileProvider.Service

open Memory

variable {S T : Service Store OpenFile} {parent name u : String} {p : Location} {n : String}
  {create : String → String → Op Store OpenFile String} {node : Nat → Node}

/-! ## Two ways to create an entry -/

/-- The ways to create an entry, each with the node that it makes of an inode number. -/
inductive Creates : (String → String → Op Store OpenFile String) → (Nat → Node) → Prop where
  | file : Creates (createFile backend) fun ino => .file ino []
  | dir : Creates (createDir backend) fun ino => .dir ino []

section

variable (hplace : S.place (Uri.child parent name) = p ++ [n])

include hplace

/-- Creating a file where there is nothing adds one. -/
theorem createFile_added (hwf : S.fs.WellFormed) (h : createFile backend parent name S = .ok u T) :
    Uri.isAddress parent = true ∧ u = Uri.child parent name ∧ S.fs.IsDir p ∧ S.fs.find? (p ++ [n]) = none ∧
      T = { S with fs := S.fs.add p n fun ino => .file ino [] } := by
  obtain ⟨haddress, rfl, hfinds, file, fs, hfs, rfl⟩ := createFile_eq_ok h
  have hfree : S.fs.find? (S.place (Uri.child parent name)) = none :=
    Option.not_isSome_iff_eq_none.mp (Bool.eq_false_iff.mp hfinds)
  replace hfs : Memory.openFile (S.place (Uri.child parent name)) .forCreation S.fs = .ok file fs := call_of_run hfs
  obtain ⟨ino, data, -, hopened⟩ := (openFile_eq_ok_iff hwf).mp hfs
  rw [hplace] at hfree hopened
  generalize hl : p ++ [n] = l at hfree hopened
  cases hopened with
  | found hfile => cases hfree.symm.trans hfile
  | emptied hfile => cases hfree.symm.trans hfile
  | created _ hp =>
    obtain ⟨rfl, rfl⟩ := Location.child_inj.mp hl
    exact ⟨haddress, rfl, hp, hfree, rfl⟩

/-- Creating a directory where there is nothing adds one. -/
theorem createDir_added (h : createDir backend parent name S = .ok u T) :
    Uri.isAddress parent = true ∧ u = Uri.child parent name ∧ S.fs.IsDir p ∧ S.fs.find? (p ++ [n]) = none ∧
      T = { S with fs := S.fs.add p n fun ino => .dir ino [] } := by
  obtain ⟨haddress, rfl, fs, hfs, rfl⟩ := createDir_eq_ok h
  replace hfs : Memory.createDir (S.place (Uri.child parent name)) S.fs = .ok () fs := call_of_run hfs
  rw [hplace] at hfs
  rcases createDir_cases (p ++ [n]) S.fs with ⟨e, he⟩ | ⟨q, m, hl, -, hp, hfree, hok⟩
  · cases hfs.symm.trans he
  · obtain ⟨rfl, rfl⟩ := Location.child_inj.mp hl
    cases hfs.symm.trans hok
    exact ⟨haddress, rfl, hp, hfree, rfl⟩

/-- A success adds one node to a directory, at a place that was free. -/
theorem Creates.added (hcreate : Creates create node) (hwf : S.fs.WellFormed) (h : create parent name S = .ok u T) :
    Uri.isAddress parent = true ∧ u = Uri.child parent name ∧ S.fs.IsDir p ∧ S.fs.find? (p ++ [n]) = none ∧
      T = { S with fs := S.fs.add p n node } := by
  cases hcreate with
  | file => exact createFile_added hplace hwf h
  | dir => exact createDir_added hplace h

end

/-- Where there is something already, nothing is created. -/
theorem Creates.taken (hcreate : Creates create node) (haddress : Uri.isAddress parent = true)
    (hthere : (S.fs.find? (S.place (Uri.child parent name))).isSome = true) :
    Reply.ofRun "" (create parent name) S = some (⟨"", 13900015⟩, S) := by
  cases hcreate with
  | file =>
    have hprobe : backend.run (.probe ⟨Uri.pathOf S.bundle (Uri.child parent name)⟩) S.fs = .ok true S.fs :=
      congrArg (EStateM.Result.ok · S.fs) hthere
    refine Reply.ofRun_failed (e := .alreadyExists (Uri.child parent name)) ?_ ""
    rw [createFile, bind_apply, check_apply haddress]
    dsimp only
    rw [bind_apply, pathOf_apply]
    dsimp only
    rw [bind_apply, passOn_apply, hprobe]
    rfl
  | dir =>
    have hcall : call (.createDir ⟨Uri.pathOf S.bundle (Uri.child parent name)⟩) S.fs
        = .error (.alreadyExists (S.place (Uri.child parent name)).text) S.fs := createDir_taken hthere
    refine Reply.ofRun_failed (e := .platform (.alreadyExists (S.place (Uri.child parent name)).text)) ?_ ""
    rw [createDir, bind_apply, check_apply haddress]
    dsimp only
    rw [bind_apply, pathOf_apply]
    dsimp only
    rw [bind_apply, passOn_apply, ← backendTo_depth, run_of_error hcall]

/-- A node without content can be deleted. -/
theorem Creates.deleted (hcreate : Creates create node) {uri : String} {ino : Nat}
    (haddress : Uri.isAddress uri = true) (hplace : S.place uri = p ++ [n])
    (hnode : S.fs.find? (p ++ [n]) = some (node ino)) :
    delete backend uri S = .ok () { S with fs := S.fs.remove p n } := by
  have hfound : S.fs.find? (Path.mk (Uri.pathOf S.bundle uri)).location = some (node ino) := by
    rw [← hplace] at hnode
    exact hnode
  have hproper : Location.Proper (p ++ [n]) := hplace ▸ Path.location_proper _
  have hn : Name.isText n = true := (Location.proper_child.mp hproper).2.isText
  rw [delete, bind_apply, check_apply haddress]
  dsimp only
  rw [bind_apply, pathOf_apply]
  dsimp only
  rw [bind_apply, passOn_apply, ← backendTo_depth, run_stat hfound]
  dsimp only
  rw [isDir_stat]
  cases hcreate with
  | file =>
    change passOn ((backendTo backend.depth).run (.delete ⟨Uri.pathOf S.bundle uri⟩)) S = _
    rw [passOn_apply, run_delete hplace hn hnode]
  | dir =>
    change passOn ((backendTo backend.depth).run (.removeDir ⟨Uri.pathOf S.bundle uri⟩)) S = _
    rw [passOn_apply, run_removeDir hplace hn hnode]

/-- The node that is made has the number that it is made of, and lists nothing. -/
theorem Creates.fresh (hcreate : Creates create node) (ino : Nat) : (node ino).ino = ino ∧ (node ino).names = [] := by
  cases hcreate <;> exact ⟨rfl, rfl⟩

/-! ## What other requests see of it -/

/-- In every store that can come about, for a bundle that is one segment, an address of the provider's own scheme
and a name other than the bundle that can be a segment: what was created has the URI of the child; listings without
a criterion show it behind what they showed before; it is accessible, and what is said about it is what the listings
show; creating it again is refused and changes nothing; and deleting it brings back the state, but for the inode
number that was used up. -/
theorem created_entry {a : Session} (ha : a.Reachable) (hfs : S.fs = a.store) (hbundle : '/' ∉ S.bundle.toList)
    (hparent : Uri.IsProvided parent) (hname : Uri.IsSegment name.toList) (hdot : name ≠ ".") (hup : name ≠ "..")
    (hother : name ≠ S.bundle) (hcreate : Creates create node)
    (h : Reply.ofRun "" (create parent name) S = some (.success u, T)) :
    u = Uri.child parent name ∧
    (∃ d : Document, d.fileName = name ∧ T.documents parent = S.documents parent ++ [d] ∧
      (∀ count filter, filter.filter Filter.hasCriteria = none →
        Reply.ofRun [] (listFiles backend parent 0 count filter) S
          = some (.success ((S.documents parent).take (windowEnd 0 count)), S) ∧
        Reply.ofRun [] (listFiles backend parent 0 count filter) T
          = some (.success ((T.documents parent).take (windowEnd 0 count)), T)) ∧
      Reply.ofRun .empty (fileInfo backend u) T = some (.success d, T)) ∧
    Reply.ofRun false (access backend u) T = some (.success true, T) ∧
    Reply.ofRun "" (create parent name) T = some (⟨"", 13900015⟩, T) ∧
    Reply.ofRun () (delete backend u) T
      = some (.success (), { S with fs := { S.fs with nextIno := S.fs.nextIno + 1 } }) := by
  have hwf : S.fs.WellFormed := hfs ▸ ha.sound.store
  have hdot' : name.toList ≠ ".".toList := fun heq => hdot (String.toList_inj.mp heq)
  have hup' : name.toList ≠ "..".toList := fun heq => hup (String.toList_inj.mp heq)
  have hproper : IsName name := ⟨hname.ne_nil, hdot', hup', hname.no_slash⟩
  have hchild : S.place (Uri.child parent name) = S.place parent ++ [name] :=
    Uri.location_child_provided hbundle hparent hname hother hproper
  obtain ⟨haddress, rfl, hdir, hfree, rfl⟩ := hcreate.added hchild hwf (Reply.eq_ok_of_success h)
  have hvalid : Uri.isAddress (Uri.child parent name) = true :=
    Uri.isAddress_child haddress hname.no_slash hname.legal
  -- What the new store holds at the two places that matter.
  have hadded : (S.fs.add (S.place parent) name node).WellFormed :=
    hwf.add hdir hproper hfree (hcreate.fresh _).1 (hcreate.fresh _).2
  have hnode : (S.fs.add (S.place parent) name node).find? (S.place parent ++ [name]) = some (node S.fs.nextIno) := by
    rw [Store.find?_add, if_pos rfl]
  have hparentDir : (S.fs.add (S.place parent) name node).IsDir (S.place parent) :=
    hadded.isDir_parent (Option.isSome_iff_exists.mpr ⟨_, hnode⟩)
  have hfound : (S.fs.add (S.place parent) name node).find? (S.place (Uri.child parent name))
      = some (node S.fs.nextIno) := by
    rw [hchild, hnode]
  have hthere : ((S.fs.add (S.place parent) name node).find? (S.place (Uri.child parent name))).isSome = true :=
    Option.isSome_iff_exists.mpr ⟨_, hfound⟩
  refine ⟨rfl, ⟨_, rfl, documents_add hwf hdir hfree node, fun count filter hfilter => ⟨?_, ?_⟩, ?_⟩, ?_, ?_, ?_⟩
  · exact Reply.ofRun_ok (listFiles_unfiltered hwf haddress hdir 0 count hfilter) []
  · exact Reply.ofRun_ok (listFiles_unfiltered hadded haddress hparentDir 0 count hfilter) []
  · refine Reply.ofRun_ok ((fileInfo_apply hvalid hfound).trans ?_) .empty
    rw [Uri.lastSegment_pathOf_child_provided hbundle hparent hname hother]
  · rw [access_reply, if_pos hvalid]
    exact congrArg (fun found => some (Reply.success found, _)) hthere
  · exact hcreate.taken haddress hthere
  · have hdeleted := hcreate.deleted (S := { S with fs := S.fs.add (S.place parent) name node }) hvalid hchild hnode
    rw [hwf.remove_add hdir hfree] at hdeleted
    exact Reply.ofRun_ok hdeleted ()

/-- A file with a name beyond the small letters, below a directory whose address holds the bundle and ends with a
slash. -/
theorem created_entry_below :
    ∃ (S T : Service Store OpenFile) (d : Document),
      Reply.ofRun "" (createFile backend "datashare:///app/r/" "ü") S
        = some (.success "datashare:///app/r/ü", T) ∧
      d.fileName = "ü" ∧
      Reply.ofRun [] (listFiles backend "datashare:///app/r/" 0 9 none) S
        = some (.success [⟨"datashare:///app/r/f", "f", 13, 1, 0, ""⟩], S) ∧
      Reply.ofRun [] (listFiles backend "datashare:///app/r/" 0 9 none) T
        = some (.success [⟨"datashare:///app/r/f", "f", 13, 1, 0, ""⟩, d], T) ∧
      Reply.ofRun .empty (fileInfo backend "datashare:///app/r/ü") T = some (.success d, T) ∧
      Reply.ofRun false (access backend "datashare:///app/r/ü") T = some (.success true, T) ∧
      Reply.ofRun "" (createFile backend "datashare:///app/r/" "ü") T = some (⟨"", 13900015⟩, T) ∧
      ∃ T', Reply.ofRun () (delete backend "datashare:///app/r/ü") T = some (.success (), T') ∧
        T'.fs.entries = S.fs.entries := by
  let s := storeAfter [.createDir ⟨"/r"⟩, .write ⟨"/r/f"⟩ [7]]
  obtain ⟨T, hmade⟩ : ∃ T, Reply.ofRun "" (createFile backend "datashare:///app/r/" "ü") (start "app" s)
      = some (.success "datashare:///app/r/ü", T) := exists_reply (by decide +kernel)
  have hparts : Uri.split? "datashare:///app/r/" = some ⟨"datashare", "", "/app/r/"⟩ := by decide +kernel
  have hparent : Uri.IsProvided "datashare:///app/r/" := ⟨by decide +kernel, _, hparts, rfl⟩
  have hname : Uri.IsSegment "ü".toList := by decide +kernel
  have hbefore : documents (start "app" s) "datashare:///app/r/"
      = [⟨"datashare:///app/r/f", "f", 13, 1, 0, ""⟩] := by decide +kernel
  obtain ⟨-, ⟨d, hd, hafter, hlists, hinfo⟩, haccess, hagain, hdeleted⟩ :=
    created_entry (reachable_storeAfter _) (S := start "app" s) rfl (by decide) hparent hname (by decide)
      (by decide) (by decide) .file hmade
  obtain ⟨hlistS, hlistT⟩ := hlists 9 none rfl
  rw [hbefore] at hlistS hafter
  rw [hafter] at hlistT
  exact ⟨start "app" s, T, d, hmade, hd, hlistS, hlistT, hinfo, haccess, hagain, _, hdeleted, rfl⟩

end FileProvider.Service
