import FileProvider.Memory.Session
import FileProvider.Proofs.Memory.Merge

/-!
# One step of a move

What a move does on a well-formed store before it goes deeper: it fails at once, it has moved a file,
or it has made an empty directory that the entries of the source go into. Each call on the way has one
answer, which is stated first.
-/

set_option autoImplicit false

namespace FileProvider.Memory

variable {depth : Store → Nat} {s : Store} {p q : Location} {n m : String} {path source target : Path}

/-! ## Calls, seen as runs -/

/-- The backend has a depth limit too. -/
theorem backendTo_depth : backendTo backend.depth = backend := rfl

theorem run_of_ok {α : Type} {c : Call OpenFile α} {a : α} {t : Store} (h : call c s = .ok a t) :
    (backendTo depth).run c s = .ok a t := Run.ofStep_ok h

theorem run_of_error {α : Type} {c : Call OpenFile α} {e : FsError} {t : Store}
    (h : call c s = .error e t) : (backendTo depth).run c s = .error (.failed e) t :=
  Run.ofStep_error h

theorem run_probe (path : Path) (s : Store) :
    (backendTo depth).run (.probe path) s = .ok (s.find? path.location).isSome s := rfl

theorem isDir_stat (node : Node) : node.stat.isDir = node.isDir := by
  cases node <;> rfl

theorem run_stat {node : Node} (h : s.find? path.location = some node) :
    (backendTo depth).run (.stat path) s = .ok node.stat s :=
  run_of_ok (by rw [call, stat_apply, h])

/-- The entries that a directory of a well-formed store answers have the names that it lists. -/
theorem names_of_list (h : s.WellFormed) {l : Location} {ino : Nat} {names : List String}
    (hl : s.find? l = some (.dir ino names)) :
    (names.filterMap fun n => (s.find? (l ++ [n])).map fun node => Entry.mk n node.kind).map Entry.name
      = names := by
  have hall : ∀ n ∈ names, ∃ node, s.find? (l ++ [n]) = some node := fun n hn =>
    Option.isSome_iff_exists.mp ((h.listed l n).mpr (Store.mem_names_iff.mpr ⟨ino, names, hl, hn⟩))
  clear hl
  induction names with
  | nil => rfl
  | cons n names ih =>
    obtain ⟨node, hnode⟩ := hall n List.mem_cons_self
    rw [List.filterMap_cons, hnode]
    change n :: _ = n :: names
    rw [ih fun m hm => hall m (List.mem_cons_of_mem n hm)]

theorem run_list (h : s.WellFormed) {ino : Nat} {names : List String}
    (hl : s.find? path.location = some (.dir ino names)) :
    ∃ entries, (backendTo depth).run (.list path) s = .ok entries s ∧ entries.map Entry.name = names := by
  refine ⟨_, run_of_ok ?_, names_of_list h hl⟩
  rw [call, list_apply, hl]

theorem run_read {ino : Nat} {data : Bytes} (h : s.find? path.location = some (.file ino data)) :
    (backendTo depth).run (.read path) s = .ok data s :=
  run_of_ok (by rw [call, read_apply, h])

theorem run_write_over (h : s.WellFormed) {ino : Nat} {old : Bytes} (htarget : target.location = q ++ [m])
    (hpresent : s.find? (q ++ [m]) = some (.file ino old)) (data : Bytes) :
    (backendTo depth).run (.write target data) s
      = .ok () (s.put (q ++ [m]) (.file ino data)) := by
  refine run_of_ok ?_
  rw [call, htarget]
  exact write_file (h.admits_file hpresent) hpresent data

/-! ## A place that is free -/

section

variable (htarget : target.location = q ++ [m]) (hfree : s.find? (q ++ [m]) = none)

include htarget hfree

/-- At a free place in a directory a file can be written. -/
theorem run_write_new (hm : Name.isText m = true) (hq : s.IsDir q) (data : Bytes) :
    (backendTo depth).run (.write target data) s = .ok () (s.add q m fun ino => .file ino data) := by
  refine run_of_ok ?_
  rw [call, htarget]
  exact write_free hm hq hfree data

theorem run_createDir (hm : Name.isText m = true) (hq : s.IsDir q) :
    (backendTo depth).run (.createDir target) s = .ok () (s.add q m fun ino => .dir ino []) := by
  refine run_of_ok ?_
  rw [call, htarget, createDir_free hfree, bind_apply, holderOf_child hm hq]
  rfl

theorem roomForDir_free (conflict : Conflict) :
    (backendTo depth).roomForDir target conflict s = (backendTo depth).run (.createDir target) s := by
  unfold Backend.roomForDir
  rw [bind_apply, run_probe, htarget, hfree]
  rfl

theorem roomForFile_free (conflict : Conflict) :
    (backendTo depth).roomForFile target conflict s = .ok () s := by
  rw [Backend.roomForFile, bind_apply, run_probe, htarget, hfree]
  rfl

end

/-! ## The source -/

theorem run_delete {ino : Nat} {data : Bytes} (hsource : source.location = p ++ [n])
    (hn : Name.isText n = true) (h : s.find? (p ++ [n]) = some (.file ino data)) :
    (backendTo depth).run (.delete source) s = .ok () (s.remove p n) := by
  refine run_of_ok ?_
  rw [call, hsource, delete_apply, h, parentOf_child hn]
  rfl

theorem run_removeDir {ino : Nat} (hsource : source.location = p ++ [n])
    (hn : Name.isText n = true) (h : s.find? (p ++ [n]) = some (.dir ino [])) :
    (backendTo depth).run (.removeDir source) s = .ok () (s.remove p n) := by
  refine run_of_ok ?_
  rw [call, hsource, removeDir_apply, h, parentOf_child hn]
  rfl

/-! ## The first step -/

/-- A source that is missing cannot be moved. -/
theorem moveWalk_missing {d : Nat} {conflict : Conflict} (h : s.find? source.location = none) :
    (backendTo depth).moveWalk (d + 1) source target conflict s
      = .error (.failed (.notFound source.location.text)) s := by
  have hstat : (backendTo depth).run (.stat source) s
      = .error (.failed (.notFound source.location.text)) s :=
    run_of_error (by rw [call, stat_apply, h])
  rw [Backend.moveWalk, bind_apply, hstat]

/-- A file is moved by making room, copying and deleting. -/
theorem moveWalk_of_file {d : Nat} {ino : Nat} {data : Bytes} (conflict : Conflict)
    (h : s.find? source.location = some (.file ino data)) :
    (backendTo depth).moveWalk (d + 1) source target conflict s
      = ((backendTo depth).roomForFile target conflict >>= fun _ =>
          (backendTo depth).copyContent source target >>= fun _ =>
          (backendTo depth).run (.delete source)) s := by
  rw [Backend.moveWalk, bind_apply, run_stat h]
  rfl

/-- A directory is moved by making room and moving its entries one by one. -/
theorem moveWalk_of_dir {d : Nat} {ino : Nat} {names : List String} (conflict : Conflict)
    (h : s.find? source.location = some (.dir ino names)) :
    (backendTo depth).moveWalk (d + 1) source target conflict s
      = ((backendTo depth).roomForDir target conflict >>= fun _ =>
          (backendTo depth).run (.list source) >>= fun entries =>
          (entries.forM fun entry =>
            (backendTo depth).moveWalk d (source.join entry.name) (target.join entry.name) conflict) >>=
          fun _ => (backendTo depth).run (.removeDir source)) s := by
  rw [Backend.moveWalk, bind_apply, run_stat h]
  rfl

/-- No room is made at a place that is taken if nothing is to be overwritten. -/
theorem roomForDir_taken (h : (s.find? target.location).isSome = true) :
    ∃ e, (backendTo depth).roomForDir target .refuse s = .error (.failed e) s := by
  obtain ⟨found, hfound⟩ := Option.isSome_iff_exists.mp h
  unfold Backend.roomForDir
  rw [bind_apply, run_probe, h]
  dsimp only
  rw [if_pos rfl, bind_apply, run_stat hfound]
  dsimp only
  split <;> exact ⟨_, rfl⟩

theorem roomForFile_taken (h : (s.find? target.location).isSome = true) :
    (backendTo depth).roomForFile target .refuse s
      = .error (.failed (.alreadyExists target.text)) s := by
  rw [Backend.roomForFile, bind_apply, run_probe, h]
  rfl

/-- A file never gives way to a directory. -/
theorem roomForDir_file {ino : Nat} {data : Bytes} (conflict : Conflict)
    (h : s.find? target.location = some (.file ino data)) :
    (backendTo depth).roomForDir target conflict s
      = .error (.failed (.notADirectory target.text)) s := by
  unfold Backend.roomForDir
  rw [bind_apply, run_probe, h]
  dsimp only
  rw [Option.isSome_some, if_pos rfl, bind_apply, run_stat h]
  rfl

/-- A directory never gives way to a file. -/
theorem roomForFile_dir (conflict : Conflict) (h : s.IsDir target.location) :
    ∃ e, (backendTo depth).roomForFile target conflict s = .error (.failed e) s := by
  obtain ⟨ino, names, h⟩ := h
  unfold Backend.roomForFile
  rw [bind_apply, run_probe, h]
  dsimp only
  rw [Option.isSome_some, if_pos rfl]
  split
  · exact ⟨_, rfl⟩
  · rw [bind_apply, run_stat h]
    exact ⟨_, rfl⟩

/-- A directory may receive the entries of another one if entries may be overwritten. -/
theorem roomForDir_overwrite (h : s.IsDir target.location) :
    (backendTo depth).roomForDir target .overwrite s = .ok () s := by
  obtain ⟨ino, names, h⟩ := h
  unfold Backend.roomForDir
  rw [bind_apply, run_probe, h]
  dsimp only
  rw [Option.isSome_some, if_pos rfl, bind_apply, run_stat h]
  rfl

theorem roomForFile_overwrite {ino : Nat} {data : Bytes} {conflict : Conflict} (hc : conflict ≠ .refuse)
    (h : s.find? target.location = some (.file ino data)) :
    (backendTo depth).roomForFile target conflict s = .ok () s := by
  unfold Backend.roomForFile
  rw [bind_apply, run_probe, h]
  dsimp only
  rw [Option.isSome_some, if_pos rfl, if_neg hc, bind_apply, run_stat h]
  rfl

/-- Nothing is moved onto a place that holds something of the other kind. -/
theorem moveWalk_clash {d : Nat} (conflict : Conflict)
    (h : s.Clash source.location target.location) :
    ∃ e, (backendTo depth).moveWalk (d + 1) source target conflict s = .error (.failed e) s := by
  obtain ⟨node, found, hnode, hfound, hne⟩ := h
  cases node with
  | file ino data =>
    cases found with
    | file ino' old => exact absurd rfl hne
    | dir ino' names =>
      obtain ⟨e, he⟩ := roomForFile_dir conflict ⟨ino', names, hfound⟩
      exact ⟨e, by rw [moveWalk_of_file _ hnode, bind_apply, he]⟩
  | dir ino names =>
    cases found with
    | file ino' old =>
      exact ⟨_, by rw [moveWalk_of_dir _ hnode, bind_apply, roomForDir_file conflict hfound]⟩
    | dir ino' names' => exact absurd rfl hne

/-- Nothing is moved to a place that is taken if nothing is to be overwritten. -/
theorem moveWalk_taken {d : Nat} (hsource : (s.find? source.location).isSome = true)
    (htarget : (s.find? target.location).isSome = true) :
    ∃ e, (backendTo depth).moveWalk (d + 1) source target .refuse s = .error (.failed e) s := by
  obtain ⟨node, hnode⟩ := Option.isSome_iff_exists.mp hsource
  cases node with
  | file ino data =>
    exact ⟨_, by rw [moveWalk_of_file _ hnode, bind_apply, roomForFile_taken htarget]⟩
  | dir ino names =>
    obtain ⟨e, he⟩ := roomForDir_taken htarget
    exact ⟨e, by rw [moveWalk_of_dir _ hnode, bind_apply, he]⟩

/-- Once there is room for a directory, its entries are moved and then it is removed. -/
theorem moveWalk_of_room {t : Store} {d : Nat} {conflict : Conflict} (hdir : s.IsDir source.location)
    (hroom : (backendTo depth).roomForDir target conflict s = .ok () t) (ht : t.WellFormed)
    (hstill : t.IsDir source.location) :
    (backendTo depth).moveWalk (d + 1) source target conflict s
      = (((t.names source.location).forM fun c =>
          (backendTo depth).moveWalk d (source.join c) (target.join c) conflict) >>= fun _ =>
          (backendTo depth).run (.removeDir source)) t := by
  obtain ⟨ino, names, hdir⟩ := hdir
  obtain ⟨ino', names', hstill⟩ := hstill
  obtain ⟨entries, hlist, hnames⟩ := run_list ht hstill
  rw [moveWalk_of_dir _ hdir, bind_apply, hroom]
  dsimp only
  rw [bind_apply, hlist, Store.names_of_find? hstill]
  dsimp only
  rw [Node.names, ← hnames, List.forM_eq_forM, List.forM_eq_forM, List.forM_map]

/-- A file that may be overwritten takes the content of the one that is moved there, be it itself. -/
theorem moveWalk_over {d : Nat} {ino ino' : Nat} {data old : Bytes} {conflict : Conflict}
    (h : s.WellFormed) (hc : conflict ≠ .refuse) (hsource : source.location = p ++ [n])
    (htarget : target.location = q ++ [m]) (hfile : s.find? (p ++ [n]) = some (.file ino data))
    (hpresent : s.find? (q ++ [m]) = some (.file ino' old)) :
    (backendTo depth).moveWalk (d + 1) source target conflict s
      = .ok () ((s.put (q ++ [m]) (.file ino' data)).remove p n) := by
  have hfind : s.find? source.location = some (.file ino data) := by rw [hsource, hfile]
  obtain ⟨i, hstill⟩ : ∃ i,
      (s.put (q ++ [m]) (.file ino' data)).find? (p ++ [n]) = some (.file i data) := by
    rw [Store.find?_put]
    split
    · exact ⟨ino', rfl⟩
    · exact ⟨ino, hfile⟩
  rw [moveWalk_of_file _ hfind, bind_apply, roomForFile_overwrite hc (htarget ▸ hpresent)]
  dsimp only
  rw [bind_apply, Backend.copyContent, bind_apply, run_read hfind]
  dsimp only
  rw [run_write_over h htarget hpresent]
  dsimp only
  rw [run_delete hsource (h.isText (Option.isSome_iff_exists.mpr ⟨_, hfile⟩)) hstill]

section

variable (htarget : target.location = q ++ [m]) (hfree : s.find? (q ++ [m]) = none)

include htarget hfree

/-- Nothing is moved to where no entry can come. -/
theorem moveWalk_refused {d : Nat} {node : Node} {e : FsError}
    (hsource : s.find? source.location = some node)
    (hholder : holderOf (q ++ [m]) s = .error e s) (conflict : Conflict) :
    (backendTo depth).moveWalk (d + 1) source target conflict s = .error (.failed e) s := by
  cases node with
  | file ino data =>
    have hwrite : (backendTo depth).run (.write target data) s = .error (.failed e) s := by
      refine run_of_error ?_
      rw [call, htarget, write_eq, hholder]
    rw [moveWalk_of_file _ hsource, bind_apply, roomForFile_free htarget hfree]
    dsimp only
    rw [bind_apply, Backend.copyContent, bind_apply, run_read hsource]
    dsimp only
    rw [hwrite]
  | dir ino names =>
    have hcreate : (backendTo depth).run (.createDir target) s = .error (.failed e) s := by
      refine run_of_error ?_
      rw [call, htarget, createDir_free hfree, bind_apply, hholder]
    rw [moveWalk_of_dir _ hsource, bind_apply, roomForDir_free htarget hfree, hcreate]

/-- A file is moved to a free place by copying it there and deleting it. -/
theorem moveWalk_file {d : Nat} {ino : Nat} {data : Bytes} (hsource : source.location = p ++ [n])
    (hn : Name.isText n = true) (hfile : s.find? (p ++ [n]) = some (.file ino data))
    (hne : p ++ [n] ≠ q ++ [m]) (hm : Name.isText m = true) (hq : s.IsDir q) (conflict : Conflict) :
    (backendTo depth).moveWalk (d + 1) source target conflict s
      = .ok () ((s.add q m fun ino => .file ino data).remove p n) := by
  have hfind : s.find? source.location = some (.file ino data) := by rw [hsource, hfile]
  have hstill : (s.add q m fun ino => .file ino data).find? (p ++ [n]) = some (.file ino data) := by
    rw [Store.find?_add, if_neg hne, hfile, Option.map_some]
    unfold Node.attachAt
    split <;> rfl
  rw [moveWalk_of_file _ hfind, bind_apply, roomForFile_free htarget hfree]
  dsimp only
  rw [bind_apply, Backend.copyContent, bind_apply, run_read hfind]
  dsimp only
  rw [run_write_new htarget hfree hm hq]
  dsimp only
  rw [run_delete hsource hn hstill]

/-- A directory is moved to a free place by moving its entries into a new one. -/
theorem moveWalk_dir (h : s.WellFormed) {d : Nat} (hdir : s.IsDir source.location) (hproper : IsName m)
    (hq : s.IsDir q) (hstill : (s.add q m fun ino => .dir ino []).IsDir source.location)
    (conflict : Conflict) :
    (backendTo depth).moveWalk (d + 1) source target conflict s
      = ((((s.add q m fun ino => .dir ino []).names source.location).forM fun c =>
          (backendTo depth).moveWalk d (source.join c) (target.join c) conflict) >>= fun _ =>
          (backendTo depth).run (.removeDir source)) (s.add q m fun ino => .dir ino []) := by
  refine moveWalk_of_room hdir ?_ (h.add hq hproper hfree rfl rfl) hstill
  rw [roomForDir_free htarget hfree, run_createDir htarget hfree hproper.isText hq]

end

end FileProvider.Memory
