import FileProvider.Proofs.Fs.Tree
import FileProvider.Proofs.Host.Changing

/-!
# Walks that keep to a region

A walk of calls below a path follows links: it may change whatever that path, or a location below it, leads
to. `Reaches` says what that is, and `StaysIn` which locations a walk may use that keeps to a region. No
call of a walk makes a link, so that what can be reached later could be reached from the beginning.
-/

set_option autoImplicit false

namespace FileProvider.Host

variable {h k m : Host} {l p q source target : Location} {region region' written : Location → Prop}

/-- Whether a place lies at or below one to which a location, or something below it, may lead. -/
def Reaches (h : Host) (l p : Location) : Prop :=
  ∃ rest q, Location.Descends rest ∧ Leads h [] (l ++ rest) q ∧ q <+: p

/-- What lies at or below a place to which a location leads is reached from it. -/
theorem Leads.reaches (hleads : Leads h [] l p) (hp : p <+: q) : h.Reaches l q :=
  ⟨[], p, Location.descends_nil, by rw [List.append_nil]; exact hleads, hp⟩

/-- Where no link is on the way to a location or below it, nothing else is reached. -/
theorem within_of_reaches (hreaches : h.Reaches l p) (hdescends : l.Descends)
    (hlinks : ∀ q target, h.find? q = some (.link target) → Location.Apart q l) : l <+: p := by
  obtain ⟨rest, q, hrest, hleads, hq⟩ := hreaches
  obtain rfl : q = l ++ rest := by
    refine hleads.eq_append (Location.descends_append.mpr ⟨hdescends, hrest⟩) fun q' target hq' hlink => ?_
    rcases List.prefix_or_prefix_of_prefix hq' (List.prefix_append l rest) with hle | hle
    · exact (hlinks q' target hlink).not_within hle
    · exact (hlinks q' target hlink).not_within' hle
  exact (List.prefix_append l rest).trans hq

/-- Whether a walk that keeps to a region may use a location: from it, as far as the links of the host go,
nothing outside the region is reached. -/
def StaysIn (h : Host) (region : Location → Prop) (l : Location) : Prop := ∀ q, h.Reaches l q → region q

namespace StaysIn

theorem mono (hl : h.StaysIn region l) (hregion : ∀ q, region q → region' q) : h.StaysIn region' l :=
  fun q hq => hregion q (hl q hq)

/-- A walk may go on to the children. -/
theorem child (hl : h.StaysIn region l) {n : String} (hn : IsChildStep n) : h.StaysIn region (l ++ [n]) := by
  rintro q ⟨rest, p, hrest, hleads, hp⟩
  refine hl q ⟨n :: rest, p, List.forall_mem_cons.mpr ⟨hn, hrest⟩, ?_, hp⟩
  rwa [List.append_cons]

theorem within (hl : h.StaysIn region l) (hk : Framed region' written h k) (hleads : Leads k [] l p) :
    ∀ q, p <+: q → region q := fun q hq => hl q ((hleads.mono hk.link).reaches hq)

/-- Changes where a location of the walk leads are changes in the region. -/
theorem changed (hl : h.StaysIn region l) (hk : Framed region written h k) (hm : k.ChangesAt l m) :
    Framed region written h m := by
  obtain ⟨p, hleads, hframed⟩ := hm
  exact hk.trans (hframed.mono (hl.within hk hleads) fun _ => False.elim)

/-- So are writes, if the walk may write there. -/
theorem rewritten (hl : h.StaysIn region l) (hw : h.StaysIn written l) (hk : Framed region written h k)
    (hm : k.WritesAt l m) : Framed region written h m := by
  obtain ⟨p, hleads, hframed⟩ := hm
  exact hk.trans (hframed.mono (hl.within hk hleads) (hw.within hk hleads))

variable {α : Type} {x : Op α}

theorem keeps (hl : h.StaysIn region l)
    (hx : ∀ k : Host, k.WellFormed → Atomic x k fun _ m => k.ChangesAt l m) :
    Keeps (Framed region written h) x :=
  .of_atomic fun k hk => (hx k hk.wellFormed).mono fun _ _ hm => hl.changed hk hm

theorem keeps_writing (hl : h.StaysIn region l) (hw : h.StaysIn written l)
    (hx : ∀ k : Host, k.WellFormed → Atomic x k fun _ m => k.WritesAt l m) :
    Keeps (Framed region written h) x :=
  .of_atomic fun k hk => (hx k hk.wellFormed).mono fun _ _ hm => hl.rewritten hw hk hm

theorem keeps_openNode (hl : h.StaysIn region l) (hw : h.StaysIn written l) (mode : OpenMode) :
    Keeps (Framed region written h) (openNode l mode) := by
  refine .of_atomic fun k hk => (atomic_openNode hk.wellFormed l mode).mono fun _ m hopened => ?_
  cases hopened with
  | dir => exact hk
  | @file p id _ hleads hframed _ => exact hl.rewritten hw hk ⟨p, hleads, hframed⟩

theorem keeps_removeTree (hl : h.StaysIn region l) : Keeps (Framed region written h) (removeTree l) := by
  refine .of_outcome fun k hk => ?_
  rcases removeTree_outcome hk.wellFormed l with hsame | hm
  · rw [hsame]
    exact hk
  · exact hl.changed hk hm

end StaysIn

namespace Folder

variable {base : Location} {path : Path} {n : String}

theorem locate_join (base : Location) (path : Path) (hn : IsName n) :
    locate base (path.join n) = locate base path ++ [n] := by
  rw [locate, locate, Path.confined_eq, Path.confined_eq, Path.location_join path hn, List.append_assoc]

theorem locate_descends (hbase : base.Descends) (path : Path) : (locate base path).Descends := by
  rw [locate, Path.confined_eq]
  exact Location.descends_append.mpr ⟨hbase, path.location_descends⟩

theorem keeps_host {α : Type} {P : Host → Prop} {x : Op α} (hx : Keeps P x) (context : String) :
    Keeps P (host context x) := by
  intro k hk
  have hend := hx k hk
  unfold host
  cases hxk : x k with
  | ok a m =>
    rw [hxk] at hend
    exact hend
  | error e m =>
    rw [hxk] at hend
    exact hend

theorem atomic_probe (base : Location) (path : Path) (k : Host) :
    Atomic ((walking base).call (.probe path)) k fun _ m => m = k :=
  (Atomic.of_outcome (probe_outcome base path k)).mono fun _ _ hm => hm.1

theorem atomic_stat (base : Location) (path : Path) (k : Host) :
    Atomic ((walking base).call (.stat path)) k fun _ m => m = k := by
  obtain ⟨record, hstat⟩ := stat_outcome base path k
  exact (Atomic.of_outcome hstat).mono fun _ _ hm => hm.1

theorem atomic_host {α : Type} {x : Op α} {ok : α → Host → Prop} (hx : Atomic x k ok) (context : String) :
    Atomic (host context x) k ok := by
  rcases hx with ⟨e, he⟩ | ⟨a, m, hm, hok⟩
  · exact .of_error (by rw [host, he])
  · exact .of_ok (by rw [host, hm]) hok

/-- What a folder lists has proper names. -/
theorem atomic_list (hwf : k.WellFormed) (base : Location) (path : Path) :
    Atomic ((walking base).call (.list path)) k fun entries m => m = k ∧ ∀ e ∈ entries, IsName e.name := by
  refine (atomic_host (atomic_readDir hwf (locate base path)) _).look_bind fun entries hsteps => ?_
  split
  · next htexts =>
    exact .of_ok rfl ⟨rfl, fun e he => (hsteps e he).isName (List.all_eq_true.mp htexts e he)⟩
  · exact .of_error rfl

/-- The calls that a walk makes keep the frame on paths that stay in the region. -/
theorem keepsOn_walking (base : Location) (hwritten : ∀ q, written q → region q) :
    (walking base).KeepsOn (Framed region written h) (fun path => h.StaysIn region (locate base path))
      fun path => h.StaysIn written (locate base path) where
  into hpath := hpath.mono hwritten
  call := by
    intro α c hc hpath hwrites
    cases c with
    | read path => exact keeps_host (.of_look (atomic_readFile _)) _
    | write path data =>
      exact keeps_host (hpath.keeps_writing (hwrites rfl) fun k hk => atomic_writeFile hk _ data) _
    | create path =>
      exact keeps_host (hpath.keeps_writing (hwrites rfl) fun k hk => atomic_writeFile hk _ []) _
    | delete path => exact keeps_host (hpath.keeps fun k hk => atomic_unlink hk _) _
    | probe path => exact .of_look (atomic_probe base path)
    | stat path => exact .of_look (atomic_stat base path)
    | list path =>
      exact .of_atomic fun k hk => (atomic_list hk.wellFormed base path).mono fun _ _ hm => hm.1 ▸ hk
    | createDir path => exact keeps_host (hpath.keeps fun k hk => atomic_createDir hk _) _
    | removeDir path => exact keeps_host (hpath.keeps fun k hk => atomic_removeDir hk _) _
    | rename source target => cases hc
    | openFile path mode =>
      exact keeps_host ((hpath.keeps_openNode (hwrites rfl) mode).bind fun _ => .pure _) _
  list := by
    intro k m path entries hk _ hlist e he q
    rcases atomic_list hk.wellFormed base path with ⟨cause, hcause⟩ | ⟨listed, _, hread, -, hnames⟩
    · cases hcause.symm.trans hlist
    · cases hread.symm.trans hlist
      rw [locate_join base q (hnames e he)]
      have hstep : IsChildStep e.name := (hnames e he).isChildStep
      exact ⟨fun hq => hq.child hstep, fun hq => hq.child hstep⟩
  native := by
    intro j job hjob hsubject htarget
    cases j with
    | copy source target =>
      cases hjob
      have ht : h.StaysIn written (locate base target) := htarget target rfl
      exact (keeps_host ((ht.mono hwritten).keeps_writing ht fun k hk => atomic_copyFile hk _ _) _).ofStep
    | removeTree path =>
      cases hjob
      exact (keeps_host hsubject.keeps_removeTree _).ofStep
    | moveTree source target conflict => cases hjob

end Folder

end FileProvider.Host
