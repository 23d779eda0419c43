import Mathlib.Algebra.BigOperators.Group.List.Lemmas
import Mathlib.Algebra.Ring.Nat
import FileProvider.Proofs.Memory.Refusals
import FileProvider.Proofs.Service.Handed
import FileProvider.Service.Query

/-!
# The size of a directory

The size of a directory is found by a walk that passes over what it cannot read. Seen from outside, it is a
sum over the whole store: every file below the directory counts with its length if each call on the way to
it is answered, and as nothing otherwise. The two agree because a store holds one tree, so that every file
below a directory is below exactly one of the names that the directory lists.
-/

set_option autoImplicit false

namespace FileProvider.Memory

variable {refusal : Refusal} {s : Store} {path : Path} {n : String}

/-! ## What can be read -/

/-- Whether every call on the way from a path down to an entry is answered: the listing of the path itself, the
stat record and the listing of each directory in between, and the stat record of the entry. -/
def reads (refusal : Refusal) (s : Store) : Path → Location → Bool
  | _, [] => true
  | path, n :: r =>
    answered refusal s (.list path) && answered refusal s (.stat (path.join n)) && reads refusal s (path.join n) r

/-- Whether a location lies strictly below a path, and what is there can be read. -/
def readsAt (refusal : Refusal) (s : Store) (path : Path) (l : Location) : Bool :=
  match path.location.below? l with
  | some (n :: r) => reads refusal s path (n :: r)
  | _ => false

/-- What an entry of a store adds to the size of the directory at a path: its length if it is a file strictly
below that can be read. -/
def share (refusal : Refusal) (s : Store) (path : Path) (e : Location × Node) : Nat :=
  match e.2 with
  | .file _ data => if readsAt refusal s path e.1 then data.length else 0
  | .dir _ _ => 0

/-- The lengths of all files below a path that can be read, summed up. -/
def sizeBelow (refusal : Refusal) (s : Store) (path : Path) : Nat :=
  (s.entries.map (share refusal s path)).sum

theorem readsAt_below (r : Location) :
    readsAt refusal s path (path.location ++ n :: r) = reads refusal s path (n :: r) := by
  unfold readsAt Location.below?
  rw [List.isPrefixOf?_eq_some_iff_append_eq.mpr rfl]

/-- What can be read is below the path. -/
theorem exists_of_readsAt {l : Location} (h : readsAt refusal s path l = true) :
    ∃ n r, l = path.location ++ n :: r := by
  unfold readsAt at h
  split at h
  · next n r hbelow => exact ⟨n, r, (List.isPrefixOf?_eq_some_iff_append_eq.mp hbelow).symm⟩
  · cases h

/-- A file below a path adds its length if it can be read. -/
theorem share_file (r : Location) (ino : Nat) (data : Bytes) :
    share refusal s path (path.location ++ n :: r, .file ino data)
      = if reads refusal s path (n :: r) then data.length else 0 := by
  rw [← readsAt_below]
  rfl

theorem share_dir (l : Location) (ino : Nat) (names : List String) :
    share refusal s path (l, .dir ino names) = 0 := rfl

/-- Nothing but the files strictly below a path adds anything. -/
theorem exists_of_share_ne {e : Location × Node} (h : share refusal s path e ≠ 0) :
    ∃ n r ino data, e = (path.location ++ n :: r, .file ino data) := by
  obtain ⟨l, node⟩ := e
  cases node with
  | dir ino names => exact absurd rfl h
  | file ino data =>
    by_cases hreads : readsAt refusal s path l = true
    · obtain ⟨n, r, rfl⟩ := exists_of_readsAt hreads
      exact ⟨n, r, ino, data, rfl⟩
    · exact absurd (if_neg hreads) h

/-- Below a path that cannot be listed nothing can be read. -/
theorem sizeBelow_unlisted (h : answered refusal s (.list path) = false) : sizeBelow refusal s path = 0 := by
  refine List.sum_eq_zero (List.forall_mem_map.mpr fun e _ => ?_)
  by_contra hne
  obtain ⟨n, r, ino, data, rfl⟩ := exists_of_share_ne hne
  rw [share_file, reads, h] at hne
  exact hne rfl

/-! ## One name after the other -/

/-- A sum over a list may be taken group by group, if every element that counts is in one group. -/
theorem sum_groups {ι β : Type} (groups : List ι) (p : ι → β → Bool) (g : β → Nat) (l : List β)
    (h : ∀ e ∈ l, (groups.map fun i => if p i e then g e else 0).sum = g e) :
    (l.map g).sum = (groups.map fun i => (l.map fun e => if p i e then g e else 0).sum).sum := by
  induction l with
  | nil =>
    exact (List.sum_eq_zero (List.forall_mem_map.mpr fun i _ => rfl)).symm
  | cons e l ih =>
    have hrest := ih fun d hd => h d (List.mem_cons_of_mem e hd)
    simp only [List.map_cons, List.sum_cons]
    rw [List.sum_map_add, h e List.mem_cons_self, hrest]

/-- Whether an entry of a store is at or below the name `n` of the directory at a path. -/
def under (path : Path) (n : String) (e : Location × Node) : Bool := Location.isWithin (path.location ++ [n]) e.1

/-- What the name `n` of a directory adds to its size. -/
def part (refusal : Refusal) (s : Store) (path : Path) (n : String) : Nat :=
  (s.entries.map fun e => if under path n e then share refusal s path e else 0).sum

theorem under_iff {e : Location × Node} : under path n e = true ↔ ∃ r, e.1 = path.location ++ n :: r := by
  rw [under, Location.isWithin_iff]
  constructor
  · rintro ⟨r, hr⟩
    exact ⟨r, by rw [← hr, ← List.append_cons]⟩
  · rintro ⟨r, hr⟩
    exact ⟨r, by rw [hr, ← List.append_cons]⟩

/-- The size of a directory is made up of what its names add. -/
theorem sizeBelow_eq_parts (hs : s.WellFormed) :
    sizeBelow refusal s path = ((s.names path.location).map (part refusal s path)).sum := by
  refine sum_groups (s.names path.location) (under path) (share refusal s path) s.entries fun e he => ?_
  by_cases hzero : share refusal s path e = 0
  · rw [hzero]
    exact List.sum_eq_zero (List.forall_mem_map.mpr fun n _ => ite_self 0)
  · -- The file is below one listed name, and below no other.
    obtain ⟨n, r, ino, data, rfl⟩ := exists_of_share_ne hzero
    have hthere : (s.find? (path.location ++ [n] ++ r)).isSome = true := by
      rw [← List.append_cons]
      exact (Catalogue.isSome_find? s.entries _).mpr (List.mem_map_of_mem he)
    have hlisted : n ∈ s.names path.location := (hs.listed _ _).mp (hs.isSome_above r hthere)
    have hunder : under path n (path.location ++ n :: r, .file ino data) = true := under_iff.mpr ⟨r, rfl⟩
    rw [List.sum_map_eq_nsmul_single n, List.count_eq_one_of_mem (hs.nodup_names _) hlisted, one_nsmul,
      if_pos hunder]
    intro m hm _
    refine if_neg fun hunder => ?_
    obtain ⟨r', hr'⟩ := under_iff.mp hunder
    exact hm (List.cons.inj (List.append_cancel_left hr')).1.symm

/-- A name whose stat record cannot be read adds nothing. -/
theorem part_unread (h : answered refusal s (.stat (path.join n)) = false) : part refusal s path n = 0 := by
  refine List.sum_eq_zero (List.forall_mem_map.mpr fun e _ => ?_)
  refine ite_eq_right_iff.mpr fun hunder => ?_
  by_contra hne
  obtain ⟨m, r, ino, data, rfl⟩ := exists_of_share_ne hne
  obtain ⟨r', hr'⟩ := under_iff.mp hunder
  obtain ⟨rfl, -⟩ := List.cons.inj (List.append_cancel_left hr')
  rw [share_file, reads, h, Bool.and_false, Bool.false_and] at hne
  exact hne rfl

section

variable (hs : s.WellFormed) (hlist : answered refusal s (.list path) = true)
  (hstat : answered refusal s (.stat (path.join n)) = true)

include hs hlist hstat

/-- A file adds its length. -/
theorem part_file {ino : Nat} {data : Bytes} (hfile : s.find? (path.location ++ [n]) = some (.file ino data)) :
    part refusal s path n = data.length := by
  let e : Location × Node := (path.location ++ [n], .file ino data)
  have hmem : e ∈ s.entries := Catalogue.mem_of_find? hfile
  have honce := @List.count_eq_one_of_mem _ instBEqOfDecidableEq _ e _ (List.Nodup.of_map _ hs.keys) hmem
  have hreads : reads refusal s path [n] = true := by
    rw [reads, reads, hlist, hstat]
    rfl
  have hunder : under path n e = true := under_iff.mpr ⟨[], rfl⟩
  rw [part, List.sum_map_eq_nsmul_single e, honce, one_nsmul, if_pos hunder, share_file, if_pos hreads]
  rintro ⟨l, node⟩ hne he
  refine if_neg fun hunder => ?_
  obtain ⟨r, hr⟩ := under_iff.mp hunder
  obtain rfl : l = path.location ++ n :: r := hr
  have hfound : s.find? (path.location ++ n :: r) = some node := Catalogue.find?_of_mem hs.keys he
  cases r with
  | nil => exact hne (by rw [Option.some.inj (hfound.symm.trans hfile)])
  | cons m r =>
    rw [List.append_cons] at hfound
    cases hfound.symm.trans (hs.none_below_empty (Store.names_of_find? hfile) (List.cons_ne_nil m r))

/-- A directory adds its size. -/
theorem part_dir (hn : IsName n) (hdir : s.IsDir (path.location ++ [n])) :
    part refusal s path n = sizeBelow refusal s (path.join n) := by
  have hchild : (path.join n).location = path.location ++ [n] := path.location_join hn
  refine congrArg List.sum (List.map_congr_left fun e he => ?_)
  obtain ⟨l, node⟩ := e
  by_cases hunder : under path n (l, node) = true
  · rw [if_pos hunder]
    obtain ⟨r, hr⟩ := under_iff.mp hunder
    obtain rfl : l = path.location ++ n :: r := hr
    cases node with
    | dir ino names => rw [share_dir, share_dir]
    | file ino data =>
      cases r with
      | nil =>
        obtain ⟨ino', names, hdir⟩ := hdir
        cases (Catalogue.find?_of_mem hs.keys he).symm.trans hdir
      | cons m r =>
        have hreads : reads refusal s path (n :: m :: r) = reads refusal s (path.join n) (m :: r) := by
          rw [reads, hlist, hstat]
          rfl
        have hshare : share refusal s (path.join n) ((path.join n).location ++ m :: r, .file ino data)
            = if reads refusal s (path.join n) (m :: r) then data.length else 0 := share_file r ino data
        rw [hchild, ← List.append_cons] at hshare
        rw [share_file, hshare, hreads]
  · rw [if_neg hunder]
    by_contra hne
    obtain ⟨m, r, ino, data, heq⟩ := exists_of_share_ne (Ne.symm hne)
    have hl : l = path.location ++ n :: m :: r := by
      rw [(Prod.mk.inj heq).1, hchild, ← List.append_cons]
    exact hunder (under_iff.mpr ⟨m :: r, hl⟩)

end

/-! ## The walk -/

/-- Words that are added up one by one are the word of the sum. -/
theorem foldl_add_words {β : Type} (f : β → Nat) (l : List β) (k : Nat) :
    l.foldl (fun sum e => sum + UInt64.ofNat (f e)) (UInt64.ofNat k) = UInt64.ofNat (k + (l.map f).sum) := by
  induction l generalizing k with
  | nil => rfl
  | cons e l ih => rw [List.foldl_cons, ← UInt64.ofNat_add, ih, List.map_cons, List.sum_cons, Nat.add_assoc]

/-- A walk that may go deeper than anything below a path finds the size of the directory there. -/
theorem gives_sizeWalk (refusal : Refusal) (hs : s.WellFormed) (depth : Store → Nat) (d : Nat) (path : Path)
    (hpos : 0 < d) (hd : s.Shallow path.location d) :
    Gives (· = s) (((backendTo depth).refusing refusal).sizeWalk d path)
      (.ok (UInt64.ofNat (sizeBelow refusal s path))) := by
  induction d generalizing path with
  | zero => exact absurd hpos (Nat.lt_irrefl 0)
  | succ d ih =>
    have hlisting := (gives_list refusal s path).ofStep
    cases hlist : answer refusal s (.list path) with
    | error e =>
      rw [hlist] at hlisting
      rw [sizeBelow_unlisted (answered_error hlist)]
      exact (Gives.attempt hlisting).bind (.pure 0)
    | ok entries =>
      rw [hlist] at hlisting
      obtain ⟨hdir, hnames⟩ := isDir_of_list hs hlist
      have hsum : sizeBelow refusal s path
          = 0 + (entries.map fun e => part refusal s path e.name).sum := by
        rw [sizeBelow_eq_parts hs, ← hnames, List.map_map, Nat.zero_add]
        rfl
      rw [hsum, ← foldl_add_words]
      refine (Gives.attempt hlisting).bind (.foldlM (fun sum e he => ?_) 0)
      -- One entry adds what its name adds, whether or not it can be read.
      have hlisted : e.name ∈ s.names path.location := hnames ▸ List.mem_map_of_mem he
      have hname : IsName e.name := hs.isName hlisted
      have hchild : (path.join e.name).location = path.location ++ [e.name] := path.location_join hname
      have hlook := (gives_stat refusal s (path.join e.name)).ofStep
      dsimp only
      cases hstat : answer refusal s (.stat (path.join e.name)) with
      | error cause =>
        rw [hstat] at hlook
        have hnothing : sum + UInt64.ofNat 0 = sum := UInt64.add_zero sum
        rw [part_unread (answered_error hstat), hnothing]
        exact (Gives.attempt hlook).bind (.pure sum)
      | ok stat =>
        rw [hstat] at hlook
        refine (Gives.attempt hlook).bind ?_
        obtain ⟨node, hnode, rfl⟩ := find?_of_stat hstat
        rw [hchild] at hnode
        cases node with
        | file ino data =>
          rw [part_file hs (answered_ok hlist) (answered_ok hstat) hnode]
          exact .pure _
        | dir ino names =>
          rw [part_dir hs (answered_ok hlist) (answered_ok hstat) hname ⟨ino, names, hnode⟩]
          have hdeeper : 0 < d := hd.pos (Option.isSome_iff_exists.mpr ⟨_, hnode⟩)
          have hshallow : s.Shallow (path.join e.name).location d := hchild ▸ hd.child fun _ => rfl
          exact (ih (path.join e.name) hdeeper hshallow).bind (.pure _)

/-! ## What one refusal can change -/

/-- The path that names lead to. -/
def descend (path : Path) (q : Location) : Path := q.foldl Path.join path

/-- Whether two refusals treat the calls on a path alike that are made for the size of a directory. -/
def Refusal.AgreeAt (refusal refusal' : Refusal) (path : Path) : Prop :=
  refusal _ (.list path) = refusal' _ (.list path) ∧ refusal _ (.stat path) = refusal' _ (.stat path)

theorem answered_congr {refusal refusal' : Refusal} {α : Type} {c : Call OpenFile α}
    (h : refusal α c = refusal' α c) : answered refusal s c = answered refusal' s c := by
  unfold answered answer
  cases hc : refusal α c with
  | some cause => rw [Backend.call_refusing_some hc, Backend.call_refusing_some (h ▸ hc)]
  | none => rw [Backend.call_refusing_none hc, Backend.call_refusing_none (h ▸ hc)]

/-- Whether an entry can be read depends on the calls on the way to it alone. -/
theorem reads_congr {refusal refusal' : Refusal} {r : Location}
    (h : ∀ q, q <+: r → refusal.AgreeAt refusal' (descend path q)) :
    reads refusal s path r = reads refusal' s path r := by
  induction r generalizing path with
  | nil => rfl
  | cons n r ih =>
    have hlist : refusal _ (.list path) = refusal' _ (.list path) := (h [] List.nil_prefix).1
    have hstat : refusal _ (.stat (path.join n)) = refusal' _ (.stat (path.join n)) :=
      (h [n] (List.cons_prefix_cons.mpr ⟨rfl, List.nil_prefix⟩)).2
    have hrest : reads refusal s (path.join n) r = reads refusal' s (path.join n) r :=
      ih fun q hq => h (n :: q) (List.cons_prefix_cons.mpr ⟨rfl, hq⟩)
    rw [reads, reads, answered_congr hlist, answered_congr hstat, hrest]

/-- What a file adds does not depend on refusals in a tree that it is not in. -/
theorem share_congr {refusal refusal' : Refusal} {k : Location}
    (h : ∀ q, ¬ k <+: q → refusal.AgreeAt refusal' (descend path q)) {e : Location × Node}
    (he : ¬ path.location ++ k <+: e.1) : share refusal s path e = share refusal' s path e := by
  have hreads : readsAt refusal s path e.1 = readsAt refusal' s path e.1 := by
    unfold readsAt
    split
    · next n r hbelow =>
      have hl : path.location ++ n :: r = e.1 := List.isPrefixOf?_eq_some_iff_append_eq.mp hbelow
      refine reads_congr fun q hq => h q fun hk => he ?_
      rw [← hl]
      exact (List.prefix_append_right_inj _).mpr (hk.trans hq)
    · rfl
  unfold share
  rw [hreads]

/-! ## The size -/

/-- The size of a directory is found, whichever listings and stat records cannot be read: it is the sum over
all files strictly below it for which every call on the way is answered, as far as a word can hold it. A
path at which there is no directory has the size nothing. Refusals in one tree change nothing but what the
files in that tree add. -/
theorem Session.Reachable.dirSize_eq_shares {a : Session} (ha : a.Reachable) (refusal : Refusal) (path : Path)
    {depth : Store → Nat} (hdepth : a.store.entries.length < depth a.store) :
    (∃ v, (((backendTo depth).refusing refusal).dirSize path).outcome a.store = some (.ok v, a.store) ∧
      (sizeBelow refusal a.store path < 2 ^ 64 → v.toNat = sizeBelow refusal a.store path) ∧
      (¬ a.store.IsDir path.location → v = 0)) ∧
    ∀ (k : Location) (refusal' : Refusal), (∀ q, ¬ k <+: q → refusal.AgreeAt refusal' (descend path q)) →
      ∀ e, ¬ path.location ++ k <+: e.1 → share refusal a.store path e = share refusal' a.store path e := by
  have hs := ha.sound.store
  have hshallow : a.store.Shallow path.location (depth a.store) := fun r hr =>
    Nat.lt_of_lt_of_le (shallow_depth hs _ r hr) hdepth
  have hwalk := gives_sizeWalk refusal hs depth _ path (Nat.zero_lt_of_lt hdepth) hshallow
  obtain ⟨t, rfl, hrun⟩ := hwalk a.store rfl
  refine ⟨⟨_, Run.outcome_ok hrun, fun hsmall => UInt64.toNat_ofNat_of_lt' hsmall, fun hdir => ?_⟩,
    fun k refusal' h e he => share_congr h he⟩
  have hlist : answered refusal a.store (.list path) = false := by
    cases hlist : answer refusal a.store (.list path) with
    | error e => exact answered_error hlist
    | ok entries => exact absurd (isDir_of_list hs hlist).1 hdir
  rw [sizeBelow_unlisted hlist]
  rfl

/-- Of four files below a directory one is in a directory that cannot be listed, and one has no stat record. The
other two make up the size. -/
theorem Session.Reachable.dirSize_eq_shares_dark :
    ∃ (a : Session) (refusal : Refusal) (v : UInt64), a.Reachable ∧
      a.store.find? ["d", "dark", "c"] = some (.file 7 [1, 2, 3]) ∧
      a.store.find? ["d", "blind"] = some (.file 8 [1, 2, 3, 4]) ∧
      ((backend.refusing refusal).dirSize ⟨"/d"⟩).outcome a.store = some (.ok v, a.store) ∧ v.toNat = 3 := by
  obtain ⟨s, hs⟩ : ∃ s, s = Service.storeAfter [.createDir ⟨"/d"⟩, .write ⟨"/d/a"⟩ [1], .createDir ⟨"/d/sub"⟩,
      .write ⟨"/d/sub/b"⟩ [1, 2], .createDir ⟨"/d/dark"⟩, .write ⟨"/d/dark/c"⟩ [1, 2, 3],
      .write ⟨"/d/blind"⟩ [1, 2, 3, 4]] := ⟨_, rfl⟩
  obtain ⟨refusal, hrefusal⟩ : ∃ refusal,
      refusal = Refusal.of [("list_dir", "/d/dark"), ("metadata", "/d/blind")] .outOfSpace := ⟨_, rfl⟩
  have ha : Session.Reachable ⟨s, []⟩ := hs ▸ Service.reachable_storeAfter _
  have hsize : sizeBelow refusal s ⟨"/d"⟩ = 3 := by
    rw [hs, hrefusal]
    decide +kernel
  have hdepth : s.entries.length < backend.depth s := Nat.lt_add_one _
  obtain ⟨⟨v, hrun, hvalue, _⟩, _⟩ := ha.dirSize_eq_shares refusal ⟨"/d"⟩ hdepth
  refine ⟨⟨s, []⟩, refusal, v, ha, ?_, ?_, hrun, ?_⟩
  · rw [hs]
    decide +kernel
  · rw [hs]
    decide +kernel
  · rw [hvalue (by rw [hsize]; decide), hsize]

end FileProvider.Memory
