import FileProvider.Memory.Backend
import FileProvider.Proofs.Text.Segments
import FileProvider.Service.Basic

/-!
# On one device

Two URIs are on one device if they both begin with the URI of one root. The roots are compared as texts, not
segment by segment: what begins with the URI of a root lies inside it, or its name there is a longer one that
begins with the last segment of the root. So a root holds what is inside it, and abuts what is in such a
sibling, and either counts as on its device.
-/

set_option autoImplicit false

namespace FileProvider

namespace Text

variable {s t last p : List Char} {front ps : List (List Char)}

theorem slashed_append (segments more : List (List Char)) :
    slashed (segments ++ more) = slashed segments ++ slashed more := List.flatMap_append

/-- The pieces of a text are the first ones of another if this goes on behind a slash. -/
theorem pieces_prefix_iff : pieces '/' s <+: pieces '/' t ↔ t = s ∨ ∃ rest, t = s ++ '/' :: rest := by
  constructor
  · rintro ⟨more, hmore⟩
    have hslashed : '/' :: t = '/' :: (s ++ slashed more) := by
      rw [← slashed_pieces t, ← hmore, slashed_append, slashed_pieces, List.cons_append]
    have ht : t = s ++ slashed more := (List.cons_inj_right _).mp hslashed
    cases more with
    | nil => exact .inl (by rw [ht, slashed_nil, List.append_nil])
    | cons m more => exact .inr ⟨_, by rw [ht, slashed_cons, List.cons_append]⟩
  · rintro (rfl | ⟨rest, rfl⟩)
    · exact List.prefix_refl _
    · rw [pieces_append_sep]
      exact List.prefix_append _ _

/-- Two texts side by side: the last piece of the one and the first piece of the other become one. -/
theorem pieces_append (hs : pieces '/' s = front ++ [last]) (ht : pieces '/' t = p :: ps) :
    pieces '/' (s ++ t) = front ++ (last ++ p) :: ps := by
  have hwhole : '/' :: (s ++ t) = slashed (front ++ (last ++ p) :: ps) := by
    have hs' : '/' :: s = slashed front ++ '/' :: last := by rw [← slashed_pieces s, hs, slashed_concat]
    have ht' : '/' :: t = '/' :: (p ++ slashed ps) := by
      rw [← slashed_pieces t, ht, slashed_cons, List.cons_append]
    rw [← List.cons_append, hs', (List.cons_inj_right _).mp ht', slashed_append, slashed_cons]
    simp only [List.append_assoc, List.cons_append]
  have hplain : ∀ q ∈ front ++ (last ++ p) :: ps, '/' ∉ q := by
    intro q hq
    have hfront : ∀ q ∈ front ++ [last], '/' ∉ q := fun q hq => not_mem_of_mem_pieces (hs ▸ hq)
    have hback : ∀ q ∈ p :: ps, '/' ∉ q := fun q hq => not_mem_of_mem_pieces (ht ▸ hq)
    rcases List.mem_append.mp hq with hq | hq
    · exact hfront q (List.mem_append_left _ hq)
    · rcases List.mem_cons.mp hq with rfl | hq
      · rw [List.mem_append, not_or]
        exact ⟨hfront last (List.mem_append_right _ List.mem_cons_self), hback p List.mem_cons_self⟩
      · exact hback q (List.mem_cons_of_mem _ hq)
  have hpieces : pieces '/' ('/' :: (s ++ t)) = [] :: pieces '/' (s ++ t) := by rw [pieces, if_pos rfl]
  rw [hwhole, pieces_slashed hplain] at hpieces
  exact ((List.cons_inj_right _).mp hpieces).symm

/-- A text begins with another if their pieces agree up to the last one of this, with which the piece in its
place begins. -/
theorem prefix_iff_pieces (hs : pieces '/' s = front ++ [last]) :
    s <+: t ↔ ∃ name rest, pieces '/' t = front ++ name :: rest ∧ last <+: name := by
  constructor
  · rintro ⟨u, rfl⟩
    obtain ⟨p, ps, hp⟩ := List.exists_cons_of_ne_nil (pieces_ne_nil _ u)
    exact ⟨last ++ p, ps, pieces_append hs hp, List.prefix_append _ _⟩
  · rintro ⟨name, rest, ht, more, rfl⟩
    have hslashed : '/' :: t = '/' :: (s ++ (more ++ slashed rest)) := by
      rw [← slashed_pieces t, ht, ← List.cons_append, ← slashed_pieces s, hs, slashed_concat, slashed_append,
        slashed_cons]
      simp only [List.append_assoc, List.cons_append]
    exact ⟨more ++ slashed rest, ((List.cons_inj_right _).mp hslashed).symm⟩

end Text

namespace Root

variable {r : Root} {uri : String}

/-- Whether a URI is that of the root or continues it behind a slash. -/
def Holds (r : Root) (uri : String) : Prop := uri = r.uri ∨ ∃ rest, uri = r.uri ++ "/" ++ rest

/-- Whether a URI leads into a sibling of the root: in place of the last segment of the root it has a longer
one that begins with it. -/
def Abuts (r : Root) (uri : String) : Prop :=
  ∃ front last name rest, Text.pieces '/' r.uri.toList = front ++ [last] ∧
    Text.pieces '/' uri.toList = front ++ name :: rest ∧ last <+: name ∧ last ≠ name

/-- What a root holds has the segments of the root, and perhaps more. -/
theorem holds_iff_pieces : r.Holds uri ↔ Text.pieces '/' r.uri.toList <+: Text.pieces '/' uri.toList := by
  rw [Text.pieces_prefix_iff, Holds]
  refine or_congr String.toList_inj.symm ⟨?_, ?_⟩
  · rintro ⟨rest, rfl⟩
    refine ⟨rest.toList, ?_⟩
    rw [String.toList_append, String.toList_append, List.append_assoc]
    rfl
  · rintro ⟨rest, hrest⟩
    refine ⟨String.ofList rest, String.toList_inj.mp ?_⟩
    rw [hrest, String.toList_append, String.toList_append, String.toList_ofList, List.append_assoc]
    simp

instance : Decidable (r.Holds uri) := decidable_of_iff _ holds_iff_pieces.symm

/-- A URI begins with that of a root if the root holds it or abuts it. -/
theorem covers_iff : r.covers uri = true ↔ r.Holds uri ∨ r.Abuts uri := by
  obtain hnil | ⟨front, last, hr⟩ := List.eq_nil_or_concat (Text.pieces '/' r.uri.toList)
  · exact absurd hnil (Text.pieces_ne_nil _ _)
  rw [List.concat_eq_append] at hr
  rw [covers, List.isPrefixOf_iff_prefix, Text.prefix_iff_pieces hr]
  constructor
  · rintro ⟨name, rest, huri, hname⟩
    -- A segment of the same length is the same one, and what follows it is inside the root.
    by_cases heq : last = name
    · refine .inl (holds_iff_pieces.mpr ⟨rest, ?_⟩)
      rw [hr, huri, heq, List.append_assoc, List.singleton_append]
    · exact .inr ⟨front, last, name, rest, hr, huri, hname, heq⟩
  · rintro (hholds | ⟨front', last', name, rest, hr', huri, hname, -⟩)
    · obtain ⟨rest, hrest⟩ := holds_iff_pieces.mp hholds
      refine ⟨last, rest, ?_, List.prefix_refl _⟩
      rw [← hrest, hr, List.append_assoc, List.singleton_append]
    · obtain ⟨rfl, hlast⟩ := List.append_inj' (hr'.symm.trans hr) rfl
      cases hlast
      exact ⟨name, rest, huri, hname⟩

/-- A root does not hold what it abuts. -/
theorem abuts_iff : r.Abuts uri ↔ r.covers uri = true ∧ ¬ r.Holds uri := by
  constructor
  · intro habuts
    refine ⟨covers_iff.mpr (.inr habuts), fun hholds => ?_⟩
    obtain ⟨front, last, name, rest, hr, huri, -, hne⟩ := habuts
    obtain ⟨more, hmore⟩ := holds_iff_pieces.mp hholds
    rw [hr, huri, List.append_assoc, List.append_cancel_left_eq, List.singleton_append] at hmore
    exact hne (List.cons.inj hmore).1
  · rintro ⟨hcovers, hholds⟩
    exact (covers_iff.mp hcovers).resolve_left hholds

instance : Decidable (r.Abuts uri) := decidable_of_iff _ abuts_iff.symm

/-- Two URIs are not separated if one root covers both. -/
theorem separates_eq_false_iff {roots : List Root} {source target : String} :
    separates roots source target = false ↔
      ∃ root ∈ roots, root.covers source = true ∧ root.covers target = true := by
  rw [separates, Bool.not_eq_false', List.any_eq_true]
  simp only [Bool.and_eq_true]

end Root

namespace Service

variable {σ η : Type}

/-- Two URIs are on one device exactly if there is one current root that holds or abuts each of them. So two
URIs inside one root are on one device, and where no root abuts either of them there is no other way. -/
theorem isCrossDevice_eq_false_iff (S : Service σ η) (source target : String) :
    (S.isCrossDevice source target = false ↔
      ∃ root ∈ S.roots, (root.Holds source ∨ root.Abuts source) ∧ (root.Holds target ∨ root.Abuts target)) ∧
    ((∃ root ∈ S.roots, root.Holds source ∧ root.Holds target) → S.isCrossDevice source target = false) ∧
    ((∀ root ∈ S.roots, ¬ root.Abuts source ∧ ¬ root.Abuts target) →
      (S.isCrossDevice source target = false ↔ ∃ root ∈ S.roots, root.Holds source ∧ root.Holds target)) := by
  have hcovers : S.isCrossDevice source target = false ↔
      ∃ root ∈ S.roots, (root.Holds source ∨ root.Abuts source) ∧ (root.Holds target ∨ root.Abuts target) := by
    simp only [isCrossDevice, Root.separates_eq_false_iff, Root.covers_iff]
  have hinside : (∃ root ∈ S.roots, root.Holds source ∧ root.Holds target) →
      S.isCrossDevice source target = false := by
    rintro ⟨root, hroot, hsource, htarget⟩
    exact hcovers.mpr ⟨root, hroot, .inl hsource, .inl htarget⟩
  refine ⟨hcovers, hinside, fun hapart => ⟨fun h => ?_, hinside⟩⟩
  obtain ⟨root, hroot, hsource, htarget⟩ := hcovers.mp h
  exact ⟨root, hroot, hsource.resolve_right (hapart root hroot).1, htarget.resolve_right (hapart root hroot).2⟩

/-- Two files of a volume, and a file of the primary storage; no root abuts any of them. -/
theorem isCrossDevice_card :
    ∃ S : Service Memory.Store Memory.OpenFile,
      S.hub.table = VolumeTable.applyAll [] [.mounted ⟨"sd0", "", "/mnt/sd0"⟩] ∧
      S.isCrossDevice "fileAccess:///mnt/sd0/a" "fileAccess:///mnt/sd0/b" = false ∧
      S.isCrossDevice "fileAccess:///mnt/sd0/a" ((Root.primary S.bundle).uri ++ "/b") ≠ false := by
  let S : Service Memory.Store Memory.OpenFile :=
    { start "app" .empty with
      hub := VolumeHub.withTable (fun table => table.applyAll [.mounted ⟨"sd0", "", "/mnt/sd0"⟩]) .empty }
  obtain ⟨-, hinside, -⟩ :=
    isCrossDevice_eq_false_iff S "fileAccess:///mnt/sd0/a" "fileAccess:///mnt/sd0/b"
  obtain ⟨-, -, hapart⟩ :=
    isCrossDevice_eq_false_iff S "fileAccess:///mnt/sd0/a" ((Root.primary S.bundle).uri ++ "/b")
  refine ⟨S, rfl, hinside (by decide +kernel), fun h => ?_⟩
  exact absurd ((hapart (by decide +kernel)).mp h) (by decide +kernel)

/-- Two volumes of which the one is named like the beginning of the other: what is in the second is on one
device with what is in the first, though no root holds both. -/
theorem isCrossDevice_sibling :
    ¬ ∀ (S : Service Memory.Store Memory.OpenFile) (source target : String),
      S.isCrossDevice source target = false ↔ ∃ root ∈ S.roots, root.Holds source ∧ root.Holds target := by
  intro h
  let events : List VolumeEvent := [.mounted ⟨"sd0", "", "/mnt/sd0"⟩, .mounted ⟨"sd01", "", "/mnt/sd01"⟩]
  let S : Service Memory.Store Memory.OpenFile :=
    { start "app" .empty with
      hub := VolumeHub.withTable (fun table => table.applyAll events) .empty }
  have hsame : S.isCrossDevice "fileAccess:///mnt/sd0/a" "fileAccess:///mnt/sd01/b" = false := by decide +kernel
  have hnone : ¬ ∃ root ∈ S.roots,
      root.Holds "fileAccess:///mnt/sd0/a" ∧ root.Holds "fileAccess:///mnt/sd01/b" := by decide +kernel
  exact hnone ((h S _ _).mp hsame)

end Service

end FileProvider
