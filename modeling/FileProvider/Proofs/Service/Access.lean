import FileProvider.Memory.Backend
import FileProvider.Proofs.Host.Looking
import FileProvider.Proofs.Service.Gate
import FileProvider.Proofs.Service.Handed

/-!
# Access and information

Whether there is an entry and what is known of it are asked of a filesystem by two different calls. In
memory both look at one place, so that they cannot disagree. On the host the first does not follow a link
at the end of the path and the second does: a link that leads to nothing is an entry of which nothing is
known. Everywhere else the two agree, a fault of the host being reported by both. The host keeps no
permissions, so that none of its faults is a lack of them.
-/

set_option autoImplicit false

namespace FileProvider

namespace Service

variable {σ η : Type} {uri : String}

/-! ## What the filesystem says is what is answered -/

theorem pathText_apply (uri : String) (S : Service σ η) :
    pathText uri S = .ok (Uri.pathOf S.bundle uri) S := rfl

/-- Whether there is an entry is answered as the filesystem says it. -/
theorem access_answer (b : Backend σ η) (haddress : Uri.isAddress uri = true) (S : Service σ η) :
    (Request.access uri).reply b S
      = some (match (b.call (.probe ⟨Uri.pathOf S.bundle uri⟩)).outcome S.fs with
        | (.ok found, fs) => (.success found, { S with fs := fs })
        | (.error e, fs) => (⟨false, e.code⟩, { S with fs := fs })) := by
  rw [Request.reply, Reply.ofRun, Run.outcome, Request.run, access, bind_apply, check_apply haddress]
  dsimp only
  rw [bind_apply, pathOf_apply]
  dsimp only
  rw [passOn_apply, Backend.run, Run.ofStep, Step.outcome]
  cases b.call (.probe ⟨Uri.pathOf S.bundle uri⟩) S.fs <;> rfl

/-- What is known of an entry is answered if the filesystem has a record of it. -/
theorem info_answer (b : Backend σ η) (haddress : Uri.isAddress uri = true) (S : Service σ η) :
    (Request.info uri).reply b S
      = some (match (b.call (.stat ⟨Uri.pathOf S.bundle uri⟩)).outcome S.fs with
        | (.ok record, fs) =>
          (.success (Document.ofStat uri (Uri.lastSegment (Uri.pathOf S.bundle uri)) record),
            { S with fs := fs })
        | (.error e, fs) => (⟨.empty, e.code⟩, { S with fs := fs })) := by
  rw [Request.reply, Reply.ofRun, Run.outcome, Request.run, fileInfo, bind_apply, check_apply haddress]
  dsimp only
  rw [bind_apply, pathText_apply]
  dsimp only
  rw [bind_apply, passOn_apply, Backend.run, Run.ofStep, Step.outcome]
  cases b.call (.stat ⟨Uri.pathOf S.bundle uri⟩) S.fs <;> rfl

/-- Whether two answers agree on whether there is an entry. -/
structure Agrees (access : Reply Bool) (info : Reply Document) : Prop where
  code : access.code = StatusCode.success
  found : access.value = true ↔ info.code = StatusCode.success
  missing : access.value = false ↔ info.code = 13900002

theorem Agrees.of_found (d : Document) : Agrees (.success true) (.success d) :=
  ⟨rfl, iff_of_true rfl rfl, iff_of_false Bool.noConfusion (by simp [Reply.success, StatusCode.success])⟩

theorem Agrees.of_missing (d : Document) : Agrees (.success false) ⟨d, 13900002⟩ :=
  ⟨rfl, iff_of_false Bool.noConfusion (by simp [StatusCode.success]), iff_of_true rfl rfl⟩

/-! ## In memory -/

theorem agrees_in_memory (haddress : Uri.isAddress uri = true) (S : Service Memory.Store Memory.OpenFile) :
    ∃ a i, (Request.access uri).reply Memory.backend S = some (a, S) ∧
      (Request.info uri).reply Memory.backend S = some (i, S) ∧ Agrees a i := by
  have hprobe : (Memory.backend.call (.probe ⟨Uri.pathOf S.bundle uri⟩)).outcome S.fs
      = (.ok (S.fs.find? (Path.mk (Uri.pathOf S.bundle uri)).location).isSome, S.fs) := rfl
  have hstat : (Memory.backend.call (.stat ⟨Uri.pathOf S.bundle uri⟩)).outcome S.fs
      = Step.outcome (Memory.stat (Path.mk (Uri.pathOf S.bundle uri)).location) S.fs := rfl
  rw [access_answer _ haddress, info_answer _ haddress, hprobe, hstat, Step.outcome, Memory.stat_apply]
  cases S.fs.find? (Path.mk (Uri.pathOf S.bundle uri)).location with
  | none => exact ⟨_, _, rfl, rfl, .of_missing _⟩
  | some node => exact ⟨_, _, rfl, rfl, .of_found _⟩

/-! ## On the host -/

/-- The location on the host that a URI addresses. -/
def hostLocation (S : Service Host Host.OpenFile) (base : Location) (uri : String) : Location :=
  Host.Folder.locate base ⟨Uri.pathOf S.bundle uri⟩

/-- The answer on access, given where the location leads. -/
def accessReply : Except IoError Host.Place → Reply Bool
  | .ok (_, node) => .success node.isSome
  | .error e => if e.kind = .notFound then .success false else ⟨false, (FsError.ofIo e "").code⟩

/-- The answer on information, given where the location leads and what is known of the entry there. -/
def infoReply (d : Document) : Except IoError Host.Place → Reply Document
  | .ok (_, some _) => .success d
  | .ok (_, none) => ⟨.empty, 13900002⟩
  | .error e => ⟨.empty, (FsError.ofIo e "").code⟩

section

variable {d : Document} {r : Except IoError Host.Place}

/-- Access does not follow a link at the end. -/
theorem access_on_host (haddress : Uri.isAddress uri = true) (S : Service Host Host.OpenFile) (base : Location) :
    (Request.access uri).reply (Host.Folder.backend base) S
      = some (accessReply (S.fs.resolve .kept (S.hostLocation base uri)), S) := by
  rw [access_answer _ haddress, Host.Folder.probe_outcome, hostLocation]
  cases S.fs.resolve .kept (Host.Folder.locate base ⟨Uri.pathOf S.bundle uri⟩) with
  | ok place => rfl
  | error e =>
    dsimp only [accessReply]
    by_cases hkind : e.kind = .notFound
    · rw [if_pos hkind, if_pos hkind]
    · rw [if_neg hkind, if_neg hkind, FsError.code_ofIo e "" ("access " ++ (Path.mk (Uri.pathOf S.bundle uri)).text)]

/-- Information follows every link. -/
theorem info_on_host (haddress : Uri.isAddress uri = true) (S : Service Host Host.OpenFile) (base : Location) :
    ∃ d, (Request.info uri).reply (Host.Folder.backend base) S
      = some (infoReply d (S.fs.resolve .followed (S.hostLocation base uri)), S) := by
  obtain ⟨record, hstat⟩ := Host.Folder.stat_outcome base ⟨Uri.pathOf S.bundle uri⟩ S.fs
  refine ⟨Document.ofStat uri (Uri.lastSegment (Uri.pathOf S.bundle uri)) record, ?_⟩
  rw [info_answer _ haddress, hstat, hostLocation]
  cases S.fs.resolve .followed (Host.Folder.locate base ⟨Uri.pathOf S.bundle uri⟩) with
  | ok place =>
    obtain ⟨p, _ | node⟩ := place
    · rfl
    · rfl
  | error e =>
    dsimp only [infoReply]
    rw [FsError.code_ofIo e "" ("metadata " ++ (Path.mk (Uri.pathOf S.bundle uri)).text)]

/-- A success of the request for information means that the location leads to something. -/
theorem exists_of_infoReply (h : (infoReply d r).code = StatusCode.success) :
    ∃ p node, r = .ok (p, some node) := by
  cases r with
  | ok place =>
    obtain ⟨p, _ | node⟩ := place
    · simp [infoReply, StatusCode.success] at h
    · exact ⟨p, node, rfl⟩
  | error e => exact absurd h (ServiceError.platform (FsError.ofIo e "")).code_ne_success

/-- A fault is reported by both. -/
theorem accessReply_fault {e : IoError} (he : Host.Fault e) (d : Document) :
    accessReply (.error e) = ⟨false, (infoReply d (.error e)).code⟩ := by
  rw [accessReply, if_neg he.kind_ne, infoReply]

/-- Where both follow the same way to its end, they agree. -/
theorem agrees_of_same (d : Document) (hr : ∀ e, r = .error e → e = .os Errno.noEntry) :
    Agrees (accessReply r) (infoReply d r) := by
  cases r with
  | ok place =>
    obtain ⟨p, _ | node⟩ := place
    · exact .of_missing _
    · exact .of_found _
  | error e =>
    obtain rfl := hr e rfl
    exact .of_missing _

end

/-! ## Agreement -/

/-- Access and information agree about every valid URI. In memory there is no exception. On the host a link
that leads to nothing is found although nothing is known of it, and a fault of the host is reported by
both; where something on the way is no directory nothing is said. -/
theorem access_agrees_with_info (haddress : Uri.isAddress uri = true) :
    (∀ S : Service Memory.Store Memory.OpenFile,
      ∃ a i, (Request.access uri).reply Memory.backend S = some (a, S) ∧
        (Request.info uri).reply Memory.backend S = some (i, S) ∧ Agrees a i) ∧
    ∀ (S : Service Host Host.OpenFile) (base : Location),
      S.fs.resolve .kept (S.hostLocation base uri) ≠ .error (.os Errno.notADirectory) →
      ∃ a i, (Request.access uri).reply (Host.Folder.backend base) S = some (a, S) ∧
        (Request.info uri).reply (Host.Folder.backend base) S = some (i, S) ∧
        (S.fs.Dangling (S.hostLocation base uri) → a = .success true ∧ i.code ≠ StatusCode.success) ∧
        (∀ e, S.fs.resolve .kept (S.hostLocation base uri) = .error e → Host.Fault e →
          a = ⟨false, i.code⟩ ∧ i.code ≠ StatusCode.success) ∧
        (¬ S.fs.Dangling (S.hostLocation base uri) →
          (∀ e, S.fs.resolve .kept (S.hostLocation base uri) = .error e → ¬ Host.Fault e) → Agrees a i) := by
  refine ⟨agrees_in_memory haddress, fun S base hplain => ?_⟩
  obtain ⟨d, hinfo⟩ := info_on_host haddress S base
  refine ⟨_, _, access_on_host haddress S base, hinfo, fun hdangling => ⟨?_, fun hcode => ?_⟩,
    fun e he hfault => ?_, fun hlink hfault => ?_⟩
  · obtain ⟨p, target, hkept⟩ := hdangling.link
    rw [hkept]
    rfl
  · obtain ⟨p, node, hfound⟩ := exists_of_infoReply hcode
    exact hdangling.astray p node hfound
  · rcases S.fs.resolve_followed (S.hostLocation base uri) with ⟨p, target, hkept⟩ | hsame
    · cases hkept.symm.trans he
    · rw [hsame, he]
      exact ⟨accessReply_fault hfault d, (ServiceError.platform (FsError.ofIo e "")).code_ne_success⟩
  · rcases S.fs.resolve_followed (S.hostLocation base uri) with ⟨p, target, hkept⟩ | hsame
    · -- The link leads to something, because it would be the exception otherwise.
      obtain ⟨q, node, hfound⟩ : ∃ q node, S.fs.resolve .followed (S.hostLocation base uri) = .ok (q, some node) := by
        by_contra hno
        exact hlink ⟨⟨p, target, hkept⟩, fun q node hfound => hno ⟨q, node, hfound⟩⟩
      rw [hkept, hfound]
      exact .of_found d
    · rw [hsame]
      refine agrees_of_same d fun e he => ?_
      rcases Host.error_of_resolve he (by decide) with hno | hdir | hat
      · exact hno
      · exact absurd (hdir ▸ he) hplain
      · exact absurd hat (hfault e he)

/-- A host with a directory, and in it a link that leads to nothing. -/
def hostWithLink : Host :=
  ⟨[([], .dir), (["srv"], .dir), (["srv", "l"], .link ⟨"nowhere"⟩)], [], 0, []⟩

theorem dangling_hostWithLink : hostWithLink.Dangling ["srv", "l"] where
  link := ⟨["srv", "l"], ⟨"nowhere"⟩, by decide +kernel⟩
  astray p node hfound := by
    have hnone : hostWithLink.resolve .followed ["srv", "l"] = .ok (["srv", "nowhere"], none) := by
      decide +kernel
    cases hnone.symm.trans hfound

/-- A link that leads to nothing is found, and behind it there is nothing. -/
theorem access_agrees_with_info_link :
    let S : Service Host Host.OpenFile := start Uri.defaultBundle hostWithLink
    (∃ i, (Request.access "datashare:///l").reply (Host.Folder.backend ["srv"]) S = some (.success true, S) ∧
      (Request.info "datashare:///l").reply (Host.Folder.backend ["srv"]) S = some (i, S) ∧
      i.code ≠ StatusCode.success) ∧
    ∃ a i, (Request.access "datashare:///l/f").reply (Host.Folder.backend ["srv"]) S = some (a, S) ∧
      (Request.info "datashare:///l/f").reply (Host.Folder.backend ["srv"]) S = some (i, S) ∧ Agrees a i := by
  intro S
  have hlink : S.hostLocation ["srv"] "datashare:///l" = ["srv", "l"] := by decide +kernel
  have hbehind : S.hostLocation ["srv"] "datashare:///l/f" = ["srv", "l", "f"] := by decide +kernel
  have hkept : S.fs.resolve .kept ["srv", "l"] = .ok (["srv", "l"], some (.link ⟨"nowhere"⟩)) := by
    decide +kernel
  have hnone : S.fs.resolve .kept ["srv", "l", "f"] = .error (.os Errno.noEntry) := by decide +kernel
  constructor
  · obtain ⟨a, i, ha, hi, hdangling, -⟩ :=
      (@access_agrees_with_info "datashare:///l" (by decide +kernel)).2 S ["srv"]
        (by rw [hlink, hkept]; exact nofun)
    obtain ⟨rfl, hcode⟩ := hdangling (hlink ▸ dangling_hostWithLink)
    exact ⟨i, ha, hi, hcode⟩
  · obtain ⟨a, i, ha, hi, -, -, hagrees⟩ :=
      (@access_agrees_with_info "datashare:///l/f" (by decide +kernel)).2 S ["srv"]
        (by rw [hbehind, hnone]; simp [Errno.noEntry, Errno.notADirectory])
    refine ⟨a, i, ha, hi, hagrees (fun hdangling => ?_) fun e he hfault => ?_⟩
    · obtain ⟨p, target, hend⟩ := hdangling.link
      cases (hbehind ▸ hnone).symm.trans hend
    · cases (hbehind ▸ hnone).symm.trans he
      exact hfault.kind_ne rfl

/-- Access and information do not agree about every valid URI. -/
theorem access_without_info :
    ¬ ∀ uri, Uri.isAddress uri = true → ∀ (S : Service Host Host.OpenFile) (base : Location),
      ∃ a i, (Request.access uri).reply (Host.Folder.backend base) S = some (a, S) ∧
        (Request.info uri).reply (Host.Folder.backend base) S = some (i, S) ∧ Agrees a i := by
  intro h
  let S : Service Host Host.OpenFile := start Uri.defaultBundle hostWithLink
  obtain ⟨a, i, ha, hi, hagrees⟩ := h "datashare:///l" (by decide +kernel) S ["srv"]
  have hlink : S.hostLocation ["srv"] "datashare:///l" = ["srv", "l"] := by decide +kernel
  rw [access_on_host (by decide +kernel), hlink] at ha
  obtain ⟨d, hinfo⟩ := @info_on_host "datashare:///l" (by decide +kernel) S ["srv"]
  rw [hinfo, hlink] at hi
  cases ha
  cases hi
  obtain ⟨p, node, hfound⟩ := exists_of_infoReply (hagrees.found.mp rfl)
  exact dangling_hostWithLink.astray p node hfound

end Service

end FileProvider
