import FileProvider.Proofs.Service.Gate
import FileProvider.Proofs.Volume.Ordered

/-!
# Where roots lead

The URI of a root leads to the place where the root is mounted: that of the primary storage by the scheme of
plain files, that of a volume by the scheme of volumes. Only the first of them is an address, because the
provider does not answer to the scheme of volumes; what is on a volume is addressed by the provider's own
scheme and the path at which the volume is mounted.
-/

set_option autoImplicit false

namespace FileProvider

/-- Whether a volume is mounted at a segment path that is fit for an address and kept as it is: it does not end
in a slash, holds no illegal character, and no segment of it names the bundle. -/
structure VolumeReport.Addressable (bundle : String) (r : VolumeReport) : Prop where
  segments : Uri.isSegmentPath r.path = true
  no_slash : r.path.toList.getLast? ≠ some '/'
  legal : ∀ c ∈ r.path.toList, Uri.isIllegal c = false
  foreign : bundle.toList ∉ Text.pieces '/' r.path.toList

instance (bundle : String) (r : VolumeReport) : Decidable (r.Addressable bundle) :=
  decidable_of_iff (Uri.isSegmentPath r.path = true ∧ r.path.toList.getLast? ≠ some '/' ∧
      r.path.toList.all (fun c => !Uri.isIllegal c) = true ∧ bundle.toList ∉ Text.pieces '/' r.path.toList)
    ⟨fun ⟨h₁, h₂, h₃, h₄⟩ => ⟨h₁, h₂, by simpa using h₃, h₄⟩,
      fun h => ⟨h.segments, h.no_slash, by simpa using h.legal, h.foreign⟩⟩

namespace Uri

variable {bundle scheme path : String}

/-- A scheme, the separator and a path that begins with a slash are split into the scheme and the path, if the
separator stands nowhere before. -/
theorem split?_scheme (hscheme : Text.breakOn? separator.toList (scheme ++ separator).toList
      = some (scheme.toList, [])) (hpath : path.toList.head? = some '/') :
    split? (scheme ++ separator ++ path) = some ⟨scheme, "", path⟩ := by
  have hbreak : Text.breakOn? separator.toList (scheme ++ separator ++ path).toList
      = some (scheme.toList, path.toList) := by
    rw [String.toList_append, Text.breakOn?_append hscheme, List.nil_append]
  obtain ⟨rest, hrest⟩ := List.head?_eq_some_iff.mp hpath
  have hauthority : splitAuthority path.toList = ([], path.toList) := by
    rw [hrest]
    exact splitAuthority_append List.not_mem_nil rest
  rw [split?_of_breakOn? hbreak, hauthority, String.ofList_toList, String.ofList_toList]

/-- A path without a slash at its end is kept as it is if none of its segments is the bundle. -/
theorem pathOf_scheme (hscheme : Text.breakOn? separator.toList (scheme ++ separator).toList
      = some (scheme.toList, [])) (hpath : path.toList.head? = some '/')
    (hslash : path.toList.getLast? ≠ some '/') (hbundle : '/' ∉ bundle.toList)
    (hforeign : bundle.toList ∉ Text.pieces '/' path.toList) :
    pathOf bundle (scheme ++ separator ++ path) = path := by
  have hkept : withoutSegment bundle path.toList = path.toList := by
    unfold withoutSegment
    split
    · rfl
    · exact Text.dropSegment_of_not_mem_pieces hbundle fun h => hforeign (List.mem_of_mem_tail h)
  rw [pathOf, split?_scheme hscheme hpath]
  dsimp only
  rw [hkept, Text.chopSlash, if_neg hslash, String.ofList_toList]

/-- A segment path begins with a slash. -/
theorem head?_of_isSegmentPath (h : isSegmentPath path = true) : path.toList.head? = some '/' := by
  unfold isSegmentPath at h
  cases hpath : path.toList with
  | nil =>
    rw [hpath] at h
    cases h
  | cons c rest =>
    rw [hpath] at h
    simp only [Bool.and_eq_true, decide_eq_true_eq] at h
    rw [h.1.1, List.head?_cons]

/-- The URI of a scheme that is neither of the two is no address. -/
theorem not_isAddress_scheme (hscheme : Text.breakOn? separator.toList (scheme ++ separator).toList
      = some (scheme.toList, [])) (hpath : path.toList.head? = some '/') (hfile : scheme ≠ fileScheme)
    (hprovider : scheme ≠ providerScheme) : isAddress (scheme ++ separator ++ path) = false := by
  rw [← Bool.not_eq_true, isAddress_iff]
  rintro ⟨_, u, hu, hscheme'⟩
  rw [split?_scheme hscheme hpath] at hu
  cases hu
  exact hscheme'.elim hfile fun h => hprovider h.1

/-- The provider's own URI of a segment path is an address if nothing in the path is illegal. -/
theorem isAddress_ofPath (h : isSegmentPath path = true) (hlegal : ∀ c ∈ path.toList, isIllegal c = false) :
    isAddress (ofPath path) = true := by
  have hpath := head?_of_isSegmentPath h
  refine isAddress_iff.mpr ⟨fun c hc => ?_, _, split?_scheme (by decide +kernel) hpath, .inr ⟨rfl, ?_⟩⟩
  · rw [ofPath, String.toList_append, List.mem_append] at hc
    rcases hc with hc | hc
    · have hfront : (providerScheme ++ separator).toList.all (fun c => !isIllegal c) = true := by decide +kernel
      simpa using List.all_eq_true.mp hfront c hc
    · exact hlegal c hc
  · rw [remainder, String.empty_append]
    exact h

end Uri

/-- Every volume of a table was mounted by one of the events that led to the table. -/
theorem VolumeTable.mounted_of_mem {events : List VolumeEvent} {v : Volume}
    (h : v ∈ VolumeTable.applyAll [] events) : ∃ r, .mounted r ∈ events ∧ v = .ofReport r := by
  have hempty : Distinct [] := List.nodup_nil
  have hget := (hempty.applyAll events).get?_of_mem h
  rw [get?_applyAll] at hget
  cases hlast : VolumeEvent.lastAbout v.id events with
  | none =>
    rw [hlast] at hget
    cases hget
  | some e =>
    rw [hlast] at hget
    cases e with
    | mounted r => exact ⟨r, (VolumeEvent.volumeId_of_lastAbout hlast).1, (Option.some.inj hget).symm⟩
    | unmounted id => cases hget
    | other kind id => cases hget

namespace Service

variable {σ η : Type}

/-- Once volumes came and went, each mounted at an addressable path, the URI of every root leads to where the
root is mounted. That of the primary storage is an address, so no request refuses it; that of a volume is none,
so every request refuses it and changes nothing, but what is mounted there is addressed by the provider's own
URI of the mount path. -/
theorem roots_lead (S : Service σ η) (hbundle : S.bundle = Uri.defaultBundle) {events : List VolumeEvent}
    (hevents : ∀ r, .mounted r ∈ events → r.Addressable S.bundle)
    (htable : S.hub.table = VolumeTable.applyAll [] events) :
    ∀ root ∈ S.roots,
      (root = .primary S.bundle ∧ Uri.isAddress root.uri = true ∧
        Uri.pathOf S.bundle root.uri = Root.primaryPath ∧
        ∀ (α : Type) (request : Request α) (b : Backend σ η) (reply : Reply α) (T : Service σ η),
          (∀ uri ∈ request.uris, uri = root.uri) → request.reply b S = some (reply, T) →
            reply.code ≠ 14300002) ∨
      ∃ v ∈ S.hub.table, root = .ofVolume v ∧ Uri.isAddress root.uri = false ∧
        Uri.pathOf S.bundle root.uri = v.path ∧
        (∀ (α : Type) (request : Request α) (b : Backend σ η), root.uri ∈ request.uris →
          request.reply b S = some (⟨request.empty, 14300002⟩, S)) ∧
        Uri.isAddress (Uri.ofPath v.path) = true ∧ Uri.pathOf S.bundle (Uri.ofPath v.path) = v.path := by
  intro root hroot
  rcases List.mem_cons.mp hroot with rfl | hroot
  · have haddress : Uri.isAddress (Root.primary S.bundle).uri = true := by
      rw [hbundle]
      decide +kernel
    refine .inl ⟨rfl, haddress, by rw [hbundle]; decide +kernel, fun α request b reply T huris hreply => ?_⟩
    refine Request.code_of_addresses (fun uri huri => ?_) hreply
    rw [huris uri huri, ← Uri.isAddress_iff_mem]
    exact haddress
  · obtain ⟨v, hv, rfl⟩ := List.mem_map.mp hroot
    obtain ⟨r, hr, rfl⟩ := VolumeTable.mounted_of_mem (htable ▸ hv)
    have hr := hevents r hr
    have hpath := Uri.head?_of_isSegmentPath hr.segments
    have hsegment : '/' ∉ S.bundle.toList := by
      rw [hbundle]
      decide
    have huri : (Root.ofVolume (.ofReport r)).uri = Volume.scheme ++ Uri.separator ++ r.path := by
      show Volume.scheme ++ "://" ++ "" ++ r.path = _
      rw [String.append_empty]
      rfl
    have hno : Uri.isAddress (Root.ofVolume (.ofReport r)).uri = false := by
      rw [huri]
      exact Uri.not_isAddress_scheme (by decide +kernel) hpath (by decide) (by decide)
    refine .inr ⟨_, hv, rfl, hno, ?_, fun α request b hmem => ?_, Uri.isAddress_ofPath hr.segments hr.legal, ?_⟩
    · rw [huri]
      exact Uri.pathOf_scheme (by decide +kernel) hpath hr.no_slash hsegment hr.foreign
    · refine Request.reply_refused ⟨_, hmem, ?_⟩ b S
      rw [← Uri.isAddress_iff_mem, hno]
      exact Bool.false_ne_true
    · exact Uri.pathOf_scheme (by decide +kernel) hpath hr.no_slash hsegment hr.foreign

/-- A volume that was mounted, beside one that came and went. -/
theorem roots_lead_card :
    ∃ S : Service Memory.Store Memory.OpenFile, S.bundle = Uri.defaultBundle ∧
      S.hub.table = VolumeTable.applyAll []
        [.mounted ⟨"sd0", "CAFE", "/mnt/sd0"⟩, .mounted ⟨"usb", "", "/mnt/usb"⟩, .unmounted "usb"] ∧
      S.roots.map Root.uri = ["file://com.ohos.UserFile.ExternalFileManager/data/storage/el1/bundle/storage_daemon",
        "fileAccess:///mnt/sd0"] ∧
      Uri.pathOf S.bundle "fileAccess:///mnt/sd0" = "/mnt/sd0" ∧
      (Request.access "fileAccess:///mnt/sd0").reply Memory.backend S = some (⟨false, 14300002⟩, S) ∧
      Uri.isAddress "datashare:///mnt/sd0" = true := by
  let events : List VolumeEvent :=
    [.mounted ⟨"sd0", "CAFE", "/mnt/sd0"⟩, .mounted ⟨"usb", "", "/mnt/usb"⟩, .unmounted "usb"]
  let S : Service Memory.Store Memory.OpenFile :=
    { start Uri.defaultBundle .empty with
      hub := VolumeHub.withTable (fun table => table.applyAll events) .empty }
  have hevents : ∀ r, .mounted r ∈ events → r.Addressable S.bundle := by
    intro r hr
    obtain rfl | rfl : r = ⟨"sd0", "CAFE", "/mnt/sd0"⟩ ∨ r = ⟨"usb", "", "/mnt/usb"⟩ := by
      simpa [events] using hr
    · decide +kernel
    · decide +kernel
  have hroots : S.roots.map Root.uri
      = ["file://com.ohos.UserFile.ExternalFileManager/data/storage/el1/bundle/storage_daemon",
        "fileAccess:///mnt/sd0"] := by
    decide +kernel
  have htable : S.hub.table = [.ofReport ⟨"sd0", "CAFE", "/mnt/sd0"⟩] := by decide +kernel
  have hcard : Root.ofVolume (.ofReport ⟨"sd0", "CAFE", "/mnt/sd0"⟩) ∈ S.roots := by decide +kernel
  refine ⟨S, rfl, rfl, hroots, ?_⟩
  rcases roots_lead S rfl hevents rfl _ hcard with ⟨heq, -⟩ | ⟨v, hv, -, -, hpath, hrefused, haddress, -⟩
  · exact absurd (congrArg Root.displayName heq) (by decide)
  · obtain rfl := List.mem_singleton.mp (htable ▸ hv)
    exact ⟨hpath, hrefused _ _ _ List.mem_cons_self, haddress⟩

/-- The URIs of the roots are not all addresses: that of a mounted volume is none. -/
theorem volume_root_refused :
    ¬ ∀ (S : Service Memory.Store Memory.OpenFile) (events : List VolumeEvent),
      S.bundle = Uri.defaultBundle → (∀ r, .mounted r ∈ events → r.Addressable S.bundle) →
      S.hub.table = VolumeTable.applyAll [] events →
      ∀ root ∈ S.roots, Uri.isAddress root.uri = true := by
  intro h
  let r : VolumeReport := ⟨"sd0", "CAFE", "/mnt/sd0"⟩
  let S : Service Memory.Store Memory.OpenFile :=
    { start Uri.defaultBundle .empty with
      hub := VolumeHub.withTable (fun table => table.applyAll [.mounted r]) .empty }
  have hr : r.Addressable Uri.defaultBundle := by decide +kernel
  have hroot : Root.ofVolume (.ofReport r) ∈ S.roots := by decide +kernel
  have hevents : ∀ r', .mounted r' ∈ [VolumeEvent.mounted r] → r'.Addressable S.bundle := by
    intro r' hr'
    obtain rfl : r' = r := by simpa using hr'
    exact hr
  have haddress := h S [.mounted r] rfl hevents rfl _ hroot
  exact absurd haddress (by decide +kernel)

end Service

end FileProvider
