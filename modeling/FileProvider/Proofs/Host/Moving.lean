import FileProvider.Proofs.Host.Framed

/-!
# What a move on the host leaves alone

A rename changes the two entries that its paths name. A move by copying, which comes in its place when
something is in the way or the device is left, may change whatever the source or the target, or a location
below them, leads to. A file may have several names: what is written through one of them is read through
the others. No step is refused for want of permission.
-/

set_option autoImplicit false

namespace FileProvider.Host

variable {h k : Host} {l p q source target : Location}

/-! ## Renaming -/

/-- Only the entries that are named change when one gets the place of the other. -/
theorem seen_relocate (h : Host) {old new : Location} (hold : ¬ old <+: p) (hnew : ¬ new <+: p) :
    (h.relocate old new).seen p = h.seen p :=
  seen_congr (Catalogue.find?_relocate hold hnew) fun _ _ => rfl

/-- Whether the directories in which the last names of two locations are looked up are on two devices. -/
def Parted (h : Host) (source target : Location) : Prop :=
  ∃ d n d' n', h.Names source (d ++ [n]) ∧ h.Names target (d' ++ [n']) ∧ h.device d ≠ h.device d'

theorem avoids_ofExcept {α : Type} {e : IoError} {r : Except IoError α} (hr : r ≠ .error e) :
    Avoids e (Step.ofExcept r : Op α) := by
  intro s t h
  cases r with
  | ok a => cases h
  | error e' =>
    cases h
    exact hr rfl

theorem avoids_present (l : Location) : Avoids (.os 18) (present .followed l) := by
  refine .bind (fun k m hk => ?_) fun ⟨p, node⟩ => ?_
  · rw [place_apply] at hk
    cases hfound : k.resolve .followed l with
    | ok found =>
      rw [hfound] at hk
      cases hk
    | error e =>
      rw [hfound] at hk
      cases hk
      rcases error_of_resolve hfound (by decide) with he | he | he
      · cases he
      · cases he
      · cases he
  · cases node with
    | none => exact .throw (by simp [Errno.noEntry])
    | some node => exact .pure _

theorem avoids_parentOf (l : Location) : Avoids (.os 18) (parentOf l) := by
  unfold parentOf
  cases l.split? with
  | none => exact .throw (by simp [Errno.busy])
  | some place =>
    refine (avoids_present _).bind fun ⟨p, node⟩ => ?_
    cases node with
    | dir => exact .pure _
    | file id => exact .throw (by simp [Errno.notADirectory])
    | link target => exact .throw (by simp [Errno.notADirectory])

theorem avoids_lookup (d : Location) (name : String) : Avoids (.os 18) (lookup d name) := by
  unfold lookup
  split
  · exact .throw (by simp [Errno.nameTooLong])
  · intro s t h
    cases h

theorem avoids_checkKinds (node : HostNode) (there : Option HostNode) :
    Avoids (.os 18) (Step.ofExcept (checkKinds node there) : Op Unit) := by
  refine avoids_ofExcept fun he => ?_
  unfold checkKinds at he
  split at he
  · cases he
  · split at he
    · cases he
    · split at he <;> cases he

/-- What comes before the devices are compared is not refused for leaving one. -/
theorem avoids_parentsOf (source target : Location) : Avoids (.os 18) (parentsOf source target) := by
  have hask : ∀ l : Location, Avoids (.os 18) (Step.ofExcept (askable l) : Op Unit) :=
    fun l => avoids_ofExcept fun he => nomatch fault_of_askable he
  have hspell : ∀ l : Location, Avoids (.os 18) (Step.ofExcept (spellable l) : Op Unit) :=
    fun l => avoids_ofExcept fun he => nomatch fault_of_askable (askable_of_spellable he)
  exact (hspell source).bind fun _ => (hspell target).bind fun _ => (hask source).bind fun _ =>
    (hask target).bind fun _ => (avoids_parentOf source).bind fun _ =>
    (avoids_parentOf target).bind fun _ => .pure _

/-- Nor is what comes after. -/
theorem avoids_renameWithin (d : Location) (n : String) (d' : Location) (n' : String) :
    Avoids (.os 18) (renameWithin d n d' n') := by
  refine (avoids_lookup d n).bind fun ⟨old, there⟩ => ?_
  cases there with
  | none => exact .throw (by simp [Errno.noEntry])
  | some node =>
    refine (avoids_lookup d' n').bind fun ⟨new, room⟩ => ?_
    dsimp only
    split
    · exact .throw (by simp [Errno.invalid])
    split
    · exact .throw (by simp [Errno.notEmpty])
    split
    · exact .pure _
    refine (avoids_checkKinds node room).bind fun _ => .bind (fun _ _ hget => nomatch hget) fun m => ?_
    split
    · exact .throw (by simp [Errno.busy])
    split
    · exact .throw (by simp [Errno.notEmpty])
    · exact fun _ _ hset => nomatch hset

/-- How a rename ends: it is refused, for leaving the device only if that is what it does, or it gives the
entry that the first location names the place that the second one names, unless that is its place already. -/
theorem rename_cases (source target : Location) (h : Host) :
    (∃ e, Host.rename source target h = .error e h ∧ (e = .os Errno.crossDevice → h.Parted source target)) ∨
    ∃ k, Host.rename source target h = .ok () k ∧
      (k = h ∨ ∃ old new, h.Names source old ∧ h.Names target new ∧ k = h.relocate old new) := by
  rcases atomic_parentsOf source target h with ⟨e, he⟩ | ⟨⟨⟨d, n⟩, d', n'⟩, m, hfound, hm, hsource, htarget⟩
  · refine .inl ⟨e, by rw [Host.rename, bind_apply, he], fun hcross => ?_⟩
    exact absurd (hcross ▸ he) (avoids_parentsOf source target h h)
  · have hrename : Host.rename source target h = if h.device d ≠ h.device d'
        then .error (.os Errno.crossDevice) h else renameWithin d n d' n' h := by
      rw [Host.rename, bind_apply, hfound, hm]
      dsimp only
      rw [bind_apply]
      change (if h.device d ≠ h.device d' then _ else _ : Op Unit) h = _
      split <;> rfl
    rw [hrename]
    by_cases hdevice : h.device d = h.device d'
    · rw [if_neg (not_not_intro hdevice)]
      rcases atomic_renameWithin d n d' n' h with ⟨e, he⟩ | ⟨_, k, hk, hdone⟩
      · exact .inl ⟨e, he, fun hcross => absurd (hcross ▸ he) (avoids_renameWithin d n d' n' h h)⟩
      · exact .inr ⟨k, hk, hdone.imp_right fun heq => ⟨_, _, hsource, htarget, heq⟩⟩
    · rw [if_pos hdevice]
      exact .inl ⟨_, rfl, fun _ => ⟨d, n, d', n', hsource, htarget, hdevice⟩⟩

namespace Folder

variable {source target : Path} {conflict : Conflict} {base : Location}

/-- That a device is left is reported for one error alone. -/
theorem eq_of_ofIo_crossDevice {e : IoError} {context : String} (h : FsError.ofIo e context = .crossDevice) :
    e = .os 18 := by
  unfold FsError.ofIo at h
  split at h
  case h_5 =>
    split at h
    case h_1 hnumber =>
      cases e with
      | os n => exact congrArg IoError.os (Option.some.inj hnumber)
      | custom kind text => cases hnumber
    all_goals cases h
  all_goals cases h

theorem run_rename_cases (base : Location) (source target : Path) (h : Host) :
    (∃ e, (walking base).run (.rename source target) h = .error (.failed e) h ∧
      (e = .crossDevice → h.Parted (locate base source) (locate base target))) ∨
    ∃ k, (walking base).run (.rename source target) h = .ok () k ∧
      (k = h ∨ ∃ old new, h.Names (locate base source) old ∧ h.Names (locate base target) new ∧
        k = h.relocate old new) := by
  have hrun : (walking base).run (.rename source target)
      = Run.ofStep (host (between "rename" source target)
        (Host.rename (locate base source) (locate base target))) := rfl
  rw [hrun, Run.ofStep, host]
  rcases rename_cases (locate base source) (locate base target) h with ⟨e, he, hparted⟩ | ⟨k, hk, hrenamed⟩
  · exact .inl ⟨_, by rw [he], fun hcross => hparted (eq_of_ofIo_crossDevice hcross)⟩
  · exact .inr ⟨k, by rw [hk], hrenamed⟩

/-! ## Which way a move goes -/

/-- Something is in the way of a move. -/
theorem run_probe_taken (hthere : ∃ p node, h.resolve .kept (locate base target) = .ok (p, some node)) :
    (walking base).run (.probe target) h = .ok true h := by
  obtain ⟨p, node, hresolve⟩ := hthere
  have hprobe := probe_outcome base target h
  rw [hresolve] at hprobe
  exact Run.ofStep_ok (Step.eq_ok_of_outcome hprobe)

/-- Nothing is in the way of a move, or the look that begins it fails. -/
theorem run_probe_free (hfree : ∀ p node, h.resolve .kept (locate base target) ≠ .ok (p, some node)) :
    (∃ e, (walking base).run (.probe target) h = .error (.failed e) h) ∨
      (walking base).run (.probe target) h = .ok false h := by
  have hprobe := Atomic.of_outcome (probe_outcome base target h)
  change Atomic (probe base target) h _ at hprobe
  have hrun : (walking base).run (.probe target) = Run.ofStep (probe base target) := rfl
  rw [hrun]
  rcases hprobe with ⟨e, he⟩ | ⟨found, _, hfound, rfl, hresult⟩
  · exact .inl ⟨e, Run.ofStep_error he⟩
  · refine .inr (Run.ofStep_ok ?_)
    cases found with
    | false => exact hfound
    | true =>
      split at hresult
      · next p node hresolve =>
        obtain ⟨node, rfl⟩ := Option.isSome_iff_exists.mp (Except.ok.inj hresult)
        exact absurd hresolve (hfree p node)
      · split at hresult <;> cases hresult

/-- Where something is in the way a move copies. -/
theorem move_taken (htaken : (walking base).run (.probe target) h = .ok true h) :
    ((backend base).moveTree source target conflict).outcome h
      = ((walking base).moveByCopy source target conflict).outcome h := by
  have hmove : (backend base).moveTree source target conflict = move base source target conflict := rfl
  rw [hmove, move, Run.outcome, bind_apply, htaken]
  rfl

/-- Where nothing is in the way a move renames or changes nothing, unless it leaves the device: then it
copies. -/
theorem move_free {r : Except FsError Unit}
    (hfree : ∀ p node, h.resolve .kept (locate base target) ≠ .ok (p, some node))
    (hrun : ((backend base).moveTree source target conflict).outcome h = some (r, k)) :
    h.Parted (locate base source) (locate base target) ∧
        ((walking base).moveByCopy source target conflict).outcome h = some (r, k) ∨
      k = h ∨ ∃ old new, h.Names (locate base source) old ∧ h.Names (locate base target) new ∧
        k = h.relocate old new := by
  have hmove : (backend base).moveTree source target conflict = move base source target conflict := rfl
  rw [hmove, move, Run.outcome, bind_apply] at hrun
  rcases run_probe_free hfree with ⟨e, he⟩ | hnone
  · rw [he] at hrun
    cases hrun
    exact .inr (.inl rfl)
  · rw [hnone] at hrun
    dsimp only at hrun
    rw [if_neg Bool.false_ne_true, bind_apply, Run.attempt] at hrun
    rcases run_rename_cases base source target h with ⟨e, he, hparted⟩ | ⟨m, hm, hrenamed⟩
    · rw [he] at hrun
      dsimp only at hrun
      by_cases hcross : e = .crossDevice
      · subst hcross
        exact .inl ⟨hparted rfl, hrun⟩
      · cases e <;> first | exact absurd rfl hcross | (cases hrun; exact .inr (.inl rfl))
    · rw [hm] at hrun
      cases hrun
      exact .inr hrenamed

/-! ## What it leaves alone -/

/-- A move that may not overwrite anything changes nothing once something is in its way. -/
theorem ends_refused {source target : Path} {base : Location}
    (htaken : (walking base).run (.probe target) h = .ok true h) (depth : Nat) :
    Run.Ends ((walking base).moveWalk depth source target .refuse) h (fun _ _ => False) (· = h) True := by
  cases depth with
  | zero => exact trivial
  | succ depth =>
    have hstat : ∀ path : Path, Run.Ends ((walking base).run (.stat path)) h (fun _ k => k = h) (· = h) True :=
      fun path => .of_atomic (atomic_stat base path h)
    unfold Backend.moveWalk
    refine (hstat source).andThen (fun _ => id) fun record k hk => ?_
    subst hk
    split
    · refine Run.Ends.bind ?_
      unfold Backend.roomForDir
      refine Run.Ends.bind (.of_ok htaken ?_)
      rw [if_pos rfl]
      refine (hstat target).andThen (fun _ => id) fun record k hk => ?_
      subst hk
      split
      · exact .of_failed rfl rfl
      · exact .of_failed rfl rfl
    · refine Run.Ends.bind ?_
      unfold Backend.roomForFile
      refine Run.Ends.bind (.of_ok htaken ?_)
      rw [if_pos rfl]
      exact .of_failed rfl rfl

/-- A move by copying changes nothing but what its two paths reach, and writes nothing but what the second one
reaches. -/
theorem framed_moveByCopy {r : Except FsError Unit} (hwf : h.WellFormed)
    (hrun : ((walking base).moveByCopy source target conflict).outcome h = some (r, k)) :
    Framed (fun p => h.Reaches (locate base source) p ∨ h.Reaches (locate base target) p)
      (h.Reaches (locate base target)) h k := by
  have hkeeps : (walking base).KeepsOn (Framed (fun p => h.Reaches (locate base source) p ∨
      h.Reaches (locate base target) p) (h.Reaches (locate base target)) h) _ _ :=
    keepsOn_walking base fun _ => .inr
  exact (hkeeps.moveByCopy (fun _ => .inl) (fun _ => id) conflict).run_outcome (.refl hwf) hrun

/-- Whether a host keeps what another one has at a place. What the file there holds counts only if the file
has no name among certain places. -/
structure Spares (among : Location → Prop) (h k : Host) (p : Location) : Prop where
  node : k.find? p = h.find? p
  seen : (∀ id q, h.find? p = some (.file id) → h.find? q = some (.file id) → ¬ among q) → k.seen p = h.seen p

/-- What lies outside of a region is spared by what is done in the region. -/
theorem spares_of_framed {region written : Location → Prop} (hf : Framed region written h k) (hwf : h.WellFormed)
    (hp : ¬ region p) : Spares written h k p :=
  ⟨hf.find?_eq p hp, hf.seen_eq hwf hp⟩

/-- A move spares what neither of its paths reaches. -/
theorem spares_of_unreached (hwf : h.WellFormed) (hbase : h.find? base = some .dir) {r : Except FsError Unit}
    (hrun : ((backend base).moveTree source target conflict).outcome h = some (r, k))
    (hsource : ¬ h.Reaches (locate base source) p) (htarget : ¬ h.Reaches (locate base target) p) :
    Spares (h.Reaches (locate base target)) h k p := by
  have hdescends : ∀ path, (locate base path).Descends := locate_descends (hwf.descends hbase)
  have hp := not_or.mpr ⟨hsource, htarget⟩
  by_cases hthere : ∃ p node, h.resolve .kept (locate base target) = .ok (p, some node)
  · have hcopy := move_taken (run_probe_taken hthere) ▸ hrun
    exact spares_of_framed (framed_moveByCopy hwf hcopy) hwf hp
  · rcases move_free (fun p node heq => hthere ⟨p, node, heq⟩) hrun with
      ⟨-, hcopy⟩ | rfl | ⟨old, new, hold, hnew, rfl⟩
    · exact spares_of_framed (framed_moveByCopy hwf hcopy) hwf hp
    · exact ⟨rfl, fun _ => rfl⟩
    · have hfrom : ¬ old <+: p := fun h => hsource ((hold.leads (hdescends source)).reaches h)
      have hto : ¬ new <+: p := fun h => htarget ((hnew.leads (hdescends target)).reaches h)
      exact ⟨Catalogue.find?_relocate hfrom hto, fun _ => seen_relocate h hfrom hto⟩

/-- Once something is in the way and nothing may be overwritten, nothing changes. -/
theorem unchanged_of_refused {r : Except FsError Unit}
    (hthere : ∃ p node, h.resolve .kept (locate base target) = .ok (p, some node))
    (hrun : ((backend base).moveTree source target .refuse).outcome h = some (r, k)) : k = h := by
  have htaken := run_probe_taken hthere
  have hend : Run.Ends ((walking base).moveByCopy source target .refuse) h _ _ _ :=
    .of_eq (Backend.moveByCopy_apply _ _ _ _ _) (ends_refused htaken ((walking base).depth h))
  rcases hend.of_outcome (move_taken htaken ▸ hrun) with ⟨_, -, hno⟩ | ⟨_, -, hsame⟩
  · exact hno.elim
  · exact hsame

/-- What a move leaves as it was, whether it succeeds or fails. Only what the source or the target, or a
location below them, leads to can change, and files with a name where the target leads. If something is in
the way and nothing may be overwritten, nothing changes. If nothing is in the way and no device is left, it is
only what lies at or below the two entries that the paths name. Where no link lies on the way to the source
or the target or below them, it is only what lies at or below the two, and files with a name at or below the
target. -/
theorem move_spares (hwf : h.WellFormed) (hbase : h.find? base = some .dir) {r : Except FsError Unit}
    (hrun : ((backend base).moveTree source target conflict).outcome h = some (r, k)) :
    (∀ p, ¬ h.Reaches (locate base source) p → ¬ h.Reaches (locate base target) p →
      Spares (h.Reaches (locate base target)) h k p) ∧
    (conflict = .refuse → (∃ p node, h.resolve .kept (locate base target) = .ok (p, some node)) → k = h) ∧
    ((∀ p node, h.resolve .kept (locate base target) ≠ .ok (p, some node)) →
      ¬ h.Parted (locate base source) (locate base target) →
      ∀ p, (∀ entry, h.Names (locate base source) entry ∨ h.Names (locate base target) entry → ¬ entry <+: p) →
        k.seen p = h.seen p) ∧
    ((∀ l text, h.find? l = some (.link text) →
        Location.Apart l (locate base source) ∧ Location.Apart l (locate base target)) →
      ∀ p, ¬ locate base source <+: p → ¬ locate base target <+: p →
        Spares (locate base target <+: ·) h k p) := by
  have hdescends : ∀ path, (locate base path).Descends := locate_descends (hwf.descends hbase)
  refine ⟨fun p => spares_of_unreached hwf hbase hrun, fun hrefuse hthere => ?_, fun hfree hdevice p hp => ?_,
    fun hlinks p hsource htarget => ?_⟩
  · subst hrefuse
    exact unchanged_of_refused hthere hrun
  · rcases move_free hfree hrun with ⟨hparted, -⟩ | rfl | ⟨old, new, hold, hnew, rfl⟩
    · exact absurd hparted hdevice
    · rfl
    · exact seen_relocate h (hp old (.inl hold)) (hp new (.inr hnew))
  · -- Without a link in its way a path reaches only what lies at or below it.
    have hfrom : ∀ {q}, h.Reaches (locate base source) q → locate base source <+: q := fun hreaches =>
      within_of_reaches hreaches (hdescends source) fun l _ hl => (hlinks l _ hl).1
    have hto : ∀ {q}, h.Reaches (locate base target) q → locate base target <+: q := fun hreaches =>
      within_of_reaches hreaches (hdescends target) fun l _ hl => (hlinks l _ hl).2
    have hspared := spares_of_unreached hwf hbase hrun (mt hfrom hsource) (mt hto htarget)
    exact ⟨hspared.node, fun hnames => hspared.seen fun id q hid hq => mt hto (hnames id q hid hq)⟩

/-- Makes two directories with a file in each, a link to the first of them beside it, and a directory with
nothing in it. -/
def makeLinked : Op Unit := do
  createDir ["srv"]
  createDir ["srv", "d"]
  writeFile ["srv", "d", "x"] [120]
  createLink "d" ["srv", "l"]
  createDir ["srv", "a"]
  writeFile ["srv", "a", "y"] [121]
  createDir ["srv", "m"]

/-- A host with two directories, a file in each, a link to the first of them beside it, and a device. -/
def linkedHost : Host := { (makeLinked.outcome Host.empty).2 with mounts := [["srv", "m"]] }

theorem wellFormed_linkedHost : linkedHost.WellFormed := by
  have hkeeps : Keeps WellFormed makeLinked :=
    (keeps_createDir _).bind fun _ => (keeps_createDir _).bind fun _ => (keeps_writeFile _ _).bind fun _ =>
      (keeps_createLink _ _).bind fun _ => (keeps_createDir _).bind fun _ => (keeps_writeFile _ _).bind fun _ =>
      keeps_createDir _
  have hwf : (makeLinked.outcome Host.empty).2.WellFormed := hkeeps.step_outcome wellFormed_empty
  exact ⟨hwf.root, hwf.parent, hwf.childStep, hwf.short, hwf.fresh⟩

theorem linkedHost_links {l : Location} {text : Path} (hl : linkedHost.find? l = some (.link text)) :
    l = ["srv", "l"] := by
  have hlinks : ∀ e ∈ linkedHost.entries, e.2.kind = .symlink → e.1 = ["srv", "l"] := by decide +kernel
  exact hlinks _ (Catalogue.mem_of_find? hl) rfl

theorem linkedHost_apart {source target : Location} (hsource : Location.Apart ["srv", "l"] source)
    (htarget : Location.Apart ["srv", "l"] target) :
    ∀ l text, linkedHost.find? l = some (.link text) → Location.Apart l source ∧ Location.Apart l target := by
  intro l text hl
  obtain rfl := linkedHost_links hl
  exact ⟨hsource, htarget⟩

/-- A move through a link changes what lies behind it, and leaves the rest; a move by copying beside a link
leaves the link, also to another device. -/
theorem move_spares_linkedHost :
    (∃ r k, ((backend ["srv"]).moveTree ⟨"/l/x"⟩ ⟨"/t"⟩ .refuse).outcome linkedHost = some (r, k) ∧
      k.seen ["srv", "a", "y"] = some (.file [121])) ∧
    (∃ r k, ((backend ["srv"]).moveTree ⟨"/a"⟩ ⟨"/d"⟩ .overwrite).outcome linkedHost = some (r, k) ∧
      k.seen ["srv", "l"] = some (.link ⟨"d"⟩)) ∧
    ∃ r k, ((backend ["srv"]).moveTree ⟨"/a"⟩ ⟨"/m/a"⟩ .refuse).outcome linkedHost = some (r, k) ∧
      k.seen ["srv", "m", "a", "y"] = some (.file [121]) ∧ k.seen ["srv", "l"] = some (.link ⟨"d"⟩) := by
  have hbase : linkedHost.find? ["srv"] = some .dir := by decide +kernel
  have hlink : linkedHost.find? ["srv", "l"] = some (.link ⟨"d"⟩) := by decide +kernel
  have hseen : linkedHost.seen ["srv", "l"] = some (.link ⟨"d"⟩) := by decide +kernel
  have hnames : ∀ {among : Location → Prop} (id q), linkedHost.find? ["srv", "l"] = some (.file id) →
      linkedHost.find? q = some (.file id) → ¬ among q := fun _ _ hfile => by cases hlink.symm.trans hfile
  refine ⟨?_, ?_, ?_⟩
  · obtain ⟨⟨r, k⟩, hrun⟩ := Option.isSome_iff_exists.mp
      (show (((backend ["srv"]).moveTree ⟨"/l/x"⟩ ⟨"/t"⟩ .refuse).outcome linkedHost).isSome = true by decide +kernel)
    have hsource : locate ["srv"] ⟨"/l/x"⟩ = ["srv", "l"] ++ ["x"] := by decide +kernel
    have htarget : locate ["srv"] ⟨"/t"⟩ = ["srv"] ++ ["t"] := by decide +kernel
    have hbehind : linkedHost.resolve .followed ["srv", "l"] = .ok (["srv", "d"], some .dir) := by decide +kernel
    have hroot : linkedHost.resolve .followed ["srv"] = .ok (["srv"], some .dir) := by decide +kernel
    have hfree : linkedHost.resolve .kept (["srv"] ++ ["t"]) = .ok (["srv", "t"], none) := by decide +kernel
    obtain ⟨-, -, hrenames, -⟩ := move_spares wellFormed_linkedHost hbase hrun
    rw [hsource, htarget, hfree] at hrenames
    refine ⟨r, k, hrun, (hrenames (fun p node heq => by cases heq) ?_ ["srv", "a", "y"] ?_).trans ?_⟩
    · rintro ⟨d, n, d', n', hfrom, hto, hdevice⟩
      obtain ⟨rfl, -⟩ := Location.child_inj.mp (hfrom.eq hbehind)
      obtain ⟨rfl, -⟩ := Location.child_inj.mp (hto.eq hroot)
      exact hdevice (by decide +kernel)
    · rintro entry (hentry | hentry)
      · rw [hentry.eq hbehind]
        decide
      · rw [hentry.eq hroot]
        decide
    · decide +kernel
  · obtain ⟨⟨r, k⟩, hrun⟩ := Option.isSome_iff_exists.mp
      (show (((backend ["srv"]).moveTree ⟨"/a"⟩ ⟨"/d"⟩ .overwrite).outcome linkedHost).isSome = true by decide +kernel)
    have hsource : locate ["srv"] ⟨"/a"⟩ = ["srv", "a"] := by decide +kernel
    have htarget : locate ["srv"] ⟨"/d"⟩ = ["srv", "d"] := by decide +kernel
    obtain ⟨-, -, -, hspares⟩ := move_spares wellFormed_linkedHost hbase hrun
    rw [hsource, htarget] at hspares
    have hspared := hspares (linkedHost_apart ⟨by decide, by decide⟩ ⟨by decide, by decide⟩) ["srv", "l"]
      (by decide) (by decide)
    exact ⟨r, k, hrun, (hspared.seen hnames).trans hseen⟩
  · obtain ⟨⟨r, k⟩, hrun⟩ := Option.isSome_iff_exists.mp
      (show (((backend ["srv"]).moveTree ⟨"/a"⟩ ⟨"/m/a"⟩ .refuse).outcome linkedHost).isSome = true by decide +kernel)
    have hsource : locate ["srv"] ⟨"/a"⟩ = ["srv", "a"] := by decide +kernel
    have htarget : locate ["srv"] ⟨"/m/a"⟩ = ["srv", "m", "a"] := by decide +kernel
    have hmoved : (((backend ["srv"]).moveTree ⟨"/a"⟩ ⟨"/m/a"⟩ .refuse).outcome linkedHost).map
        (fun (_, k) => k.seen ["srv", "m", "a", "y"]) = some (some (.file [121])) := by decide +kernel
    rw [hrun] at hmoved
    obtain ⟨-, -, -, hspares⟩ := move_spares wellFormed_linkedHost hbase hrun
    rw [hsource, htarget] at hspares
    have hspared := hspares (linkedHost_apart ⟨by decide, by decide⟩ ⟨by decide, by decide⟩) ["srv", "l"]
      (by decide) (by decide)
    exact ⟨r, k, hrun, Option.some.inj hmoved, (hspared.seen hnames).trans hseen⟩

/-- Not everything outside of what lies at or below the two paths stays as it was: a file that is moved
through a link goes from where the link leads. -/
theorem move_through_link :
    ¬ ∀ (h k : Host) (base : Location) (source target : Path) (conflict : Conflict) (r : Except FsError Unit),
      h.WellFormed → h.find? base = some .dir → Location.Apart (locate base source) (locate base target) →
      ((backend base).moveTree source target conflict).outcome h = some (r, k) →
      ∀ p, ¬ locate base source <+: p → ¬ locate base target <+: p → k.seen p = h.seen p := by
  intro hall
  obtain ⟨⟨r, k⟩, hrun⟩ := Option.isSome_iff_exists.mp
    (show (((backend ["srv"]).moveTree ⟨"/l/x"⟩ ⟨"/t"⟩ .refuse).outcome linkedHost).isSome = true by decide +kernel)
  have hgone : (((backend ["srv"]).moveTree ⟨"/l/x"⟩ ⟨"/t"⟩ .refuse).outcome linkedHost).map
      (fun (_, k) => k.seen ["srv", "d", "x"]) = some none := by decide +kernel
  rw [hrun] at hgone
  have hsource : locate ["srv"] ⟨"/l/x"⟩ = ["srv", "l", "x"] := by decide +kernel
  have htarget : locate ["srv"] ⟨"/t"⟩ = ["srv", "t"] := by decide +kernel
  have hsame := hall linkedHost k ["srv"] ⟨"/l/x"⟩ ⟨"/t"⟩ .refuse r wellFormed_linkedHost (by decide +kernel)
    (by rw [hsource, htarget]; exact ⟨by decide, by decide⟩) hrun ["srv", "d", "x"]
    (by rw [hsource]; decide) (by rw [htarget]; decide)
  have hthere : linkedHost.seen ["srv", "d", "x"] = some (.file [120]) := by decide +kernel
  cases (Option.some.inj hgone).symm.trans (hsame.trans hthere)

end Folder

end FileProvider.Host
