import FileProvider.Proofs.Memory.Opening
import FileProvider.Proofs.Memory.Relocation

/-!
# What a call can do

A call is refused and leaves the store as it was, or it is answered after one of five changes: none,
another content for a file, a new node, a node less, or another place for a tree. `Change` lists them
with the conditions that the call has checked. Renaming and opening change the store more than once on
their way; for these it matters that the checks made before the first change see to it that none of the
later ones fails. Every change keeps a store well-formed.
-/

set_option autoImplicit false

namespace FileProvider.Memory

variable {s t : Store} {l : Location}

/-- What a call can make of a store. -/
inductive Change (s : Store) : Store → Prop where
  /-- Nothing is changed. -/
  | nothing : Change s s
  /-- A file has another content. -/
  | content {l : Location} {ino : Nat} {old : Bytes} (hfile : s.find? l = some (.file ino old))
      (data : Bytes) : Change s (s.put l (.file ino data))
  /-- A node with the next number and nothing in it came to a free place in a directory. -/
  | added {p : Location} {n : String} {node : Nat → Node} (hp : s.IsDir p) (hn : IsName n)
      (hfree : s.find? (p ++ [n]) = none) (hino : (node s.nextIno).ino = s.nextIno)
      (hnames : (node s.nextIno).names = []) : Change s (s.add p n node)
  /-- A node with nothing in it left its directory. -/
  | removed {p : Location} {n : String} {node : Node} (hnode : s.find? (p ++ [n]) = some node)
      (hnames : node.names = []) : Change s (s.remove p n)
  /-- A tree took another place, where at most a node with nothing in it was. -/
  | relocated {p q : Location} {n m : String} {node : Node}
      (hsource : s.find? (p ++ [n]) = some node) (hapart : Location.Apart (p ++ [n]) (q ++ [m]))
      (hroom : ∀ found, s.find? (q ++ [m]) = some found → found.names = [])
      (hq : s.IsDir q) (hm : IsName m) : Change s (s.relocated p n q m)

theorem Written.change {data : Bytes} (h : Written data s l t) (hl : l.Descends) : Change s t := by
  cases h with
  | replaced hfile => exact .content hfile data
  | created hn hp hfree => exact .added hp ((Location.descends_child.mp hl).2.isName hn) hfree rfl rfl

theorem Opened.change {mode : OpenMode} {ino : Nat} {data : Bytes} (h : Opened mode s l ino data t)
    (hl : l.Descends) : Change s t := by
  cases h with
  | found => exact .nothing
  | emptied hfile => exact .content hfile []
  | created hn hp hfree => exact .added hp ((Location.descends_child.mp hl).2.isName hn) hfree rfl rfl

/-- All the changes keep a store well-formed. -/
theorem Change.wellFormed (h : Change s t) (hs : s.WellFormed) : t.WellFormed := by
  cases h with
  | nothing => exact hs
  | content hfile data => exact hs.put_file hfile
  | added hp hn hfree hino hnames => exact hs.add hp hn hfree hino hnames
  | removed hnode hnames => exact hs.remove ((Store.names_of_find? hnode).trans hnames)
  | relocated hsource hapart hroom hq hm =>
    exact hs.relocated hapart hroom (Option.isSome_iff_exists.mpr ⟨_, hsource⟩) hq hm

/-! ## The calls one by one -/

theorem keeps_look (P : Store → Prop) (l : Location) : Keeps P (look l) := fun _ hs => hs

theorem keeps_namesOf (P : Store → Prop) (l : Location) : Keeps P (namesOf l) := by
  refine (keeps_look P l).bind fun found => ?_
  split
  · exact .pure _
  · exact .throw _
  · exact .throw _

theorem keeps_read (P : Store → Prop) (l : Location) : Keeps P (read l) := by
  refine (keeps_look P l).bind fun found => ?_
  split
  · exact .pure _
  · exact .throw _
  · exact .throw _

theorem keeps_stat (P : Store → Prop) (l : Location) : Keeps P (stat l) := by
  refine (keeps_look P l).bind fun found => ?_
  split
  · exact .pure _
  · exact .throw _

theorem keeps_list (P : Store → Prop) (l : Location) : Keeps P (list l) := by
  refine (keeps_namesOf P l).bind fun names => ?_
  exact .bind (fun _ hs => hs) fun _ => .pure _

theorem atomic_delete_change (l : Location) (s : Store) :
    Atomic (delete l) s fun _ t => Change s t := by
  rcases delete_cases l s with ⟨e, he⟩ | ⟨p, n, ino, data, rfl, hfile, hok⟩
  · exact .inl ⟨e, he⟩
  · exact .inr ⟨(), _, hok, .removed hfile rfl⟩

theorem atomic_createDir_change (hl : l.Descends) (s : Store) :
    Atomic (createDir l) s fun _ t => Change s t := by
  rcases createDir_cases l s with ⟨e, he⟩ | ⟨p, n, rfl, hn, hp, hfree, hok⟩
  · exact .inl ⟨e, he⟩
  · exact .inr ⟨(), _, hok, .added hp ((Location.descends_child.mp hl).2.isName hn) hfree rfl rfl⟩

theorem atomic_removeDir_change (l : Location) (s : Store) :
    Atomic (removeDir l) s fun _ t => Change s t := by
  rcases removeDir_cases l s with ⟨e, he⟩ | ⟨p, n, ino, rfl, hdir, hok⟩
  · exact .inl ⟨e, he⟩
  · exact .inr ⟨(), _, hok, .removed hdir rfl⟩

theorem atomic_rename_change (hs : s.WellFormed) (source : Location) {target : Location}
    (htarget : target.Descends) : Atomic (rename source target) s fun _ t => Change s t := by
  rcases rename_cases source target s with ⟨e, he⟩ | ⟨_, _, hok⟩ |
    ⟨p, n, q, m, node, rfl, rfl, hsource, hbelow, hm, hq, hroom, hok⟩
  · exact .inl ⟨e, he⟩
  · exact .inr ⟨(), s, hok, .nothing⟩
  · have hempty := fun found hfound => (hroom found hfound).2
    have hapart := hs.apart_of_room (Option.isSome_iff_exists.mpr ⟨node, hsource⟩) hbelow hempty
    have hname := (Location.descends_child.mp htarget).2.isName hm
    exact .inr ⟨(), _, hok, .relocated hsource hapart hempty hq hname⟩

/-- Every call is refused without a change, or answered after one of the changes. -/
theorem atomic_call {α : Type} (hs : s.WellFormed) (c : Call OpenFile α) :
    Atomic (backend.call c) s fun _ t => Change s t := by
  have hlooks : ∀ {β : Type} {x : Op β}, (∀ P, Keeps P x) → Atomic x s fun _ t => Change s t := by
    intro β x hx
    refine (Keeps.looks hx s).mono fun _ t ht => ?_
    subst ht
    exact .nothing
  cases c with
  | read path => exact hlooks fun P => keeps_read P _
  | write path data =>
    exact (atomic_writing _ data s).mono fun _ t ht => ht.change path.location_descends
  | create path =>
    exact (atomic_writing _ [] s).mono fun _ t ht => ht.change path.location_descends
  | delete path => exact atomic_delete_change _ s
  | probe path => exact hlooks fun P => (keeps_look P _).bind fun _ => .pure _
  | stat path => exact hlooks fun P => keeps_stat P _
  | list path => exact hlooks fun P => keeps_list P _
  | createDir path => exact atomic_createDir_change path.location_descends s
  | removeDir path => exact atomic_removeDir_change _ s
  | rename source target => exact atomic_rename_change hs _ target.location_descends
  | openFile path mode =>
    refine (atomic_opening hs.keys _ mode).mono fun file t ht => ?_
    obtain ⟨ino, data, _, hopened⟩ := ht
    exact hopened.change path.location_descends

/-- Every call keeps a store well-formed, whether it is answered or refused. -/
theorem keeps_call {α : Type} (c : Call OpenFile α) : Keeps Store.WellFormed (backend.call c) :=
  .of_atomic fun _ hs => (atomic_call hs c).mono fun _ _ ht => ht.wellFormed hs

theorem keeps_write (hl : l.Descends) (data : Bytes) : Keeps Store.WellFormed (write l data) :=
  .of_atomic fun s hs => (atomic_writing l data s).mono fun _ _ ht => (ht.change hl).wellFormed hs

end FileProvider.Memory
