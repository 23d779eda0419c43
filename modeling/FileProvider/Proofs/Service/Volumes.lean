import FileProvider.Proofs.Memory.Rename
import FileProvider.Proofs.Service.Move
import FileProvider.Proofs.Uri.Place

/-!
# Volumes do not matter to a move

Which volumes are mounted decides whether a move renames an entry or copies it. To a free place that is not
below the entry both succeed as soon as the checks before them pass, because the place that the URI of a child
leads to is then in a directory. So a move gives the same answer and leads to the same tree, whatever volumes
are mounted.
-/

set_option autoImplicit false

namespace FileProvider.Service

open Memory

variable {S : Service Store OpenFile} {source target : String} {p q : Location} {n m : String}

/-- A free place to which the URI of a child of a directory leads is in a directory. -/
theorem parent_of_free (h : S.fs.WellFormed) (hbundle : '/' ∉ S.bundle.toList)
    (htarget : Uri.isAddress target = true)
    (hdir : S.fs.IsDir (Path.mk (Uri.pathOf S.bundle target)).location)
    (hfree : S.fs.find? (S.movedTo source target).location = none) :
    ∃ q m, (S.movedTo source target).location = q ++ [m] ∧ S.fs.IsDir q := by
  obtain ⟨u, hu⟩ := Uri.exists_split?_of_isAddress htarget
  obtain ⟨base, hbase, hplace⟩ :=
    Uri.location_child_cases hu (Uri.no_slash_lastSegment source) hbundle
  have hbase : S.fs.IsDir base := by
    rcases hbase with heq | heq <;> rw [heq]
    · exact h.root
    · exact hdir
  rcases hplace with heq | heq | ⟨_, heq⟩
  · rw [movedTo, heq] at hfree
    exact absurd hbase.isSome (by simp [hfree])
  · have hsome : (S.fs.find? base.dropLast).isSome = true := by
      rcases Location.eq_nil_or_append base with rfl | ⟨q, m, rfl⟩
      · exact hbase.isSome
      · rw [List.dropLast_concat]
        exact h.isSome_above [m] hbase.isSome
    rw [movedTo, heq] at hfree
    exact absurd hsome (by simp [hfree])
  · exact ⟨base, _, heq, hbase⟩

/-- However an entry is taken to a free place in a directory, it is taken there. -/
theorem transfer_free (h : S.fs.WellFormed) {old new : Path} (hold : old.location = p ++ [n])
    (hnew : new.location = q ++ [m]) (hapart : Location.Apart (p ++ [n]) (q ++ [m]))
    (hsome : (S.fs.find? (p ++ [n])).isSome = true) (hfree : S.fs.find? (q ++ [m]) = none)
    (hm : Name.isText m = true) (hq : S.fs.IsDir q) :
    ∃ t, transfer backend source target old new S = .ok () { S with fs := t } ∧
      S.fs.Transferred p n q m t := by
  cases hdevice : S.isCrossDevice source target with
  | false =>
    obtain ⟨node, hnode⟩ := Option.isSome_iff_exists.mp hsome
    have hrename : backend.run (.rename old new) S.fs = .ok () (S.fs.relocated p n q m) := by
      rw [← backendTo_depth]
      refine run_of_ok ?_
      rcases rename_free hnode (h.isText hsome) hapart.not_within hfree with ⟨e, he, -⟩ | ⟨-, -, hok⟩
      · rw [holderOf_child hm hq] at he
        cases he
      · rw [call, hold, hnew, hok]
    refine ⟨_, by rw [transfer_within hdevice, passOn_apply, hrename], ?_⟩
    refine Store.transferred_relocated h hapart fun found hfound => ?_
    cases hfree.symm.trans hfound
  | true =>
    obtain ⟨t, ht, htransferred⟩ := moveTree_free h hold hnew hapart hsome hfree hm hq
    exact ⟨t, by rw [transfer_across hdevice, reportAs_apply, ht], htransferred⟩

/-- The place of a move that passes the checks lies apart from its source and is in a directory, if it is free
and not below the source. -/
theorem places_of_free (h : S.fs.WellFormed) (hbundle : '/' ∉ S.bundle.toList)
    (htarget : Uri.isAddress target = true) (hpasses : S.Passes source target)
    (hfree : S.fs.find? (S.movedTo source target).location = none)
    (hbelow : ∀ r ≠ [], (S.movedTo source target).location ≠ (S.movedFrom source).location ++ r) :
    ∃ p n q m, (S.movedFrom source).location = p ++ [n] ∧ (S.movedTo source target).location = q ++ [m] ∧
      Location.Apart (p ++ [n]) (q ++ [m]) ∧ S.fs.IsDir q := by
  obtain ⟨node, hnode⟩ := hpasses.source
  obtain ⟨q, m, hnew, hq⟩ := parent_of_free h hbundle htarget hpasses.target hfree
  have hapart : Location.Apart (S.movedFrom source).location (S.movedTo source target).location := by
    refine h.apart_of_room (Option.isSome_iff_exists.mpr ⟨node, hnode⟩) ?_ fun found hfound => ?_
    · rintro ⟨r, hr⟩
      refine hbelow r (fun hnil => ?_) hr.symm
      rw [hnil, List.append_nil] at hr
      rw [hr, hfree] at hnode
      cases hnode
    · cases hfree.symm.trans hfound
  obtain ⟨p, n, hold⟩ := Location.exists_eq_append hapart.ne_nil
  rw [hold, hnew] at hapart
  exact ⟨p, n, q, m, hold, hnew, hapart, hq⟩

/-- A move that passes the checks is done if the place is free, lies apart and is in a directory. -/
theorem moveFile_free (h : S.fs.WellFormed) (hsource : Uri.isAddress source = true)
    (htarget : Uri.isAddress target = true) (hne : S.movedFrom source ≠ S.movedTo source target)
    (hpasses : S.Passes source target) (hold : (S.movedFrom source).location = p ++ [n])
    (hnew : (S.movedTo source target).location = q ++ [m])
    (hapart : Location.Apart (p ++ [n]) (q ++ [m])) (hfree : S.fs.find? (q ++ [m]) = none)
    (hq : S.fs.IsDir q) :
    ∃ t, moveFile backend source target S
        = .ok (Uri.child target (Uri.lastSegment source)) { S with fs := t } ∧
      S.fs.Transferred p n q m t := by
  have hsome : (S.fs.find? (p ++ [n])).isSome = true := by
    rw [← hold]
    exact Option.isSome_iff_exists.mpr hpasses.source
  obtain ⟨t, ht, htransferred⟩ : ∃ t,
      transfer backend source target (S.movedFrom source) (S.movedTo source target) S
        = .ok () { S with fs := t } ∧ S.fs.Transferred p n q m t :=
    transfer_free h hold hnew hapart hsome hfree (isText_movedTo hnew) hq
  refine ⟨t, ?_, htransferred⟩
  rw [← backendTo_depth] at ht ⊢
  rw [moveFile_of_passes hsource htarget hne hpasses, bind_apply, ht]
  rfl

/-- In every store that can come about, a move to a free place that is not below the source has one answer and
leads to one tree, whatever volumes are mounted. -/
theorem moveFile_ignores_volumes {a : Session} (ha : a.Reachable) (hfs : S.fs = a.store)
    (hbundle : '/' ∉ S.bundle.toList) (hsource : Uri.isAddress source = true)
    (htarget : Uri.isAddress target = true)
    (hfree : S.fs.find? (S.movedTo source target).location = none)
    (hbelow : ∀ r ≠ [], (S.movedTo source target).location ≠ (S.movedFrom source).location ++ r)
    (hub hub' : VolumeHub) :
    ∃ r t t', Reply.ofRun "" (moveFile backend source target) { S with hub := hub }
        = some (r, { S with hub := hub, fs := t }) ∧
      Reply.ofRun "" (moveFile backend source target) { S with hub := hub' }
        = some (r, { S with hub := hub', fs := t' }) ∧ t.Alike t' := by
  have h : S.fs.WellFormed := hfs ▸ ha.sound.store
  -- What decides how a move ends does not depend on the volumes: each case is settled for any of them.
  by_cases heq : S.movedFrom source = S.movedTo source target
  · have hsame : ∀ hub, Reply.ofRun "" (moveFile backend source target) { S with hub := hub } = _ :=
      fun hub => Reply.ofRun_ok (moveFile_same (S := { S with hub := hub }) backend hsource htarget heq) ""
    exact ⟨_, S.fs, S.fs, hsame hub, hsame hub', fun _ => rfl⟩
  by_cases hpasses : S.Passes source target
  · obtain ⟨p, n, q, m, hold, hnew, hapart, hq⟩ :=
      places_of_free h hbundle htarget hpasses hfree hbelow
    rw [hnew] at hfree
    have hmoved : ∀ hub, ∃ t, moveFile backend source target { S with hub := hub } = _ ∧
        S.fs.Transferred p n q m t := fun hub =>
      moveFile_free (S := { S with hub := hub }) h hsource htarget heq
        ⟨hpasses.written, hpasses.source, hpasses.target⟩ hold hnew hapart hfree hq
    obtain ⟨t, ht, htransferred⟩ := hmoved hub
    obtain ⟨t', ht', htransferred'⟩ := hmoved hub'
    exact ⟨_, t, t', Reply.ofRun_ok ht "", Reply.ofRun_ok ht' "", htransferred.alike htransferred'⟩
  · have hrefused : ∀ hub, Reply.ofRun "" (moveFile backend source target) { S with hub := hub }
        = some (⟨"", 14300004⟩, { S with hub := hub }) := by
      intro hub
      rw [← backendTo_depth]
      obtain ⟨what, hwhat⟩ := moveFile_of_not_passes (S := { S with hub := hub }) hsource htarget heq
        fun hp => hpasses ⟨hp.written, hp.source, hp.target⟩
      exact Reply.ofRun_failed hwhat ""
    exact ⟨_, S.fs, S.fs, hrefused hub, hrefused hub', fun _ => rfl⟩

/-- A directory with a file in it, moved within a volume that covers both places and without one. -/
theorem moveFile_ignores_volumes_card :
    ∃ (S : Service Store OpenFile) (hub : VolumeHub) (r : Reply String) (t t' : Store),
      S.fs.find? ["a", "f"] = some (.file 3 [7]) ∧
      ({ S with hub := hub } : Service Store OpenFile).isCrossDevice "file:///a" "file:///b" = false ∧
      S.isCrossDevice "file:///a" "file:///b" = true ∧
      Reply.ofRun "" (moveFile backend "file:///a" "file:///b") { S with hub := hub }
        = some (r, { S with hub := hub, fs := t }) ∧
      Reply.ofRun "" (moveFile backend "file:///a" "file:///b") S = some (r, { S with fs := t' }) ∧
      t.Alike t' := by
  have h : Session.Reachable ⟨_, _⟩ :=
    .step (.step (.step .start (.call (.createDir ⟨"/a"⟩) _ _)) (.call (.write ⟨"/a/f"⟩ [7]) _ _))
      (.call (.createDir ⟨"/b"⟩) _ _)
  let card : Volume := ⟨"card", "", "/", "file:///", "card", "", .removable, .sd⟩
  have hbelow : ∀ r ≠ [], (["b", "a"] : Location) ≠ ["a"] ++ r := by simp
  have hsource : Uri.isAddress "file:///a" = true := by decide +kernel
  have htarget : Uri.isAddress "file:///b" = true := by decide +kernel
  obtain ⟨r, t, t', ht, ht', halike⟩ := moveFile_ignores_volumes (S := start "app" _) h rfl (by decide)
    hsource htarget (by decide +kernel) hbelow (VolumeHub.withTable (fun table => table.add card) .empty) .empty
  exact ⟨start "app" _, _, r, t, t', by decide +kernel, by decide +kernel, by decide +kernel, ht, ht', halike⟩

end FileProvider.Service
