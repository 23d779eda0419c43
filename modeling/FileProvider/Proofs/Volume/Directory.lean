import FileProvider.Proofs.Catalogue
import FileProvider.Proofs.Run
import FileProvider.Volume.Directory

/-!
# The volumes that a directory shows

In a host every location stands once, so the names in a directory are distinct, and with them the ids of the
volumes that it shows.
-/

set_option autoImplicit false

namespace FileProvider

namespace Host

variable {h t : Host} {l : Location}

/-- Looking for what is at a location leaves the host as it is. -/
theorem eq_of_present {ending : Ending} {found : Location × HostNode}
    (hpresent : present ending l h = .ok found t) : t = h := by
  obtain ⟨place, u, hplace, hfound⟩ := bind_eq_ok hpresent
  have hu : u = h := by
    obtain ⟨host, v, hget, hresolve⟩ := bind_eq_ok hplace
    cases hget
    unfold Step.ofExcept at hresolve
    split at hresolve <;> cases hresolve
    rfl
  split at hfound <;> cases hfound
  exact hu

/-- The names that are read from a directory are distinct. -/
theorem nodup_readDir (hkeys : (h.entries.map Prod.fst).Nodup) {entries : List Entry}
    (hread : readDir l h = .ok entries t) : (entries.map Entry.name).Nodup := by
  obtain ⟨⟨found, node⟩, u, hpresent, hlist⟩ := bind_eq_ok hread
  obtain rfl := eq_of_present hpresent
  cases node with
  | dir =>
    obtain ⟨host, v, hget, hentries⟩ := bind_eq_ok hlist
    cases hget
    cases hentries
    rw [List.map_map]
    exact ((List.mergeSort_perm _ _).map Prod.fst).nodup_iff.mpr (Catalogue.nodup_children hkeys found)
  | file _ => cases hlist
  | link _ => cases hlist

end Host

namespace VolumeDirectory

variable {d : VolumeDirectory} {h : Host}

theorem scan_eq_ok (hscan : (d.scan h).isOk = true) : d.scan h = .ok (d.visible h) := by
  unfold visible
  cases hreports : d.scan h with
  | ok reports => rfl
  | error e =>
    rw [hreports] at hscan
    cases hscan

/-- The ids of the volumes in a directory are distinct. -/
theorem nodup_visible (d : VolumeDirectory) (hkeys : (h.entries.map Prod.fst).Nodup) :
    ((d.visible h).map VolumeReport.id).Nodup := by
  unfold visible scan
  cases hread : ((Host.readDir d.hostDir.location).outcome h).1 with
  | error e => exact List.nodup_nil
  | ok entries =>
    have hentries := Host.nodup_readDir hkeys (Step.eq_ok_of_outcome (Prod.ext hread rfl))
    dsimp only [seen]
    rw [List.map_map]
    exact hentries.sublist (List.filter_sublist.map _)

end VolumeDirectory

end FileProvider
