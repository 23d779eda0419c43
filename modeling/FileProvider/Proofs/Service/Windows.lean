import FileProvider.Proofs.Memory.Refusals
import FileProvider.Proofs.Service.Listing
import Mathlib.Algebra.Ring.Nat

/-!
# Windows on a listing, with entries that cannot be read

A listing need not look at every entry, so an entry that cannot be read matters only if the listing comes to
it. Without criteria it looks at the entries of its window alone; with criteria at all entries until it has
found as many as its window ends at. `Blocked` says which entries stand in its way, and `excerpt` what it
shows if none does. When every entry can be read the windows that follow each other show the whole listing.
-/

set_option autoImplicit false

namespace FileProvider.Service

open Memory

variable {σ η α : Type} {b : Backend σ η} {inv : σ → Prop} {S : Service σ η} {uri : String} {path : Path}
  {look : Entry → Except FsError Stat} {entries : List Entry} {f : Filter}

/-! ## Operations that touch the filesystem alone -/

/-- Whether a service is `S` but for the filesystem, of which an invariant holds. -/
def OnFs (inv : σ → Prop) (S T : Service σ η) : Prop := inv T.fs ∧ T = { S with fs := T.fs }

/-- How a service reports a failure of the filesystem as its own. -/
def report (cause : FsError) : Stop ServiceError := .failed (.invalidOperation cause.message)

theorem gives_reportAs {x : Run σ FsError α} {r : Except FsError α} (hx : Gives inv x (r.mapError .failed)) :
    Gives (OnFs inv S) (reportAs x) (r.mapError report) := by
  intro T ⟨hT, hS⟩
  obtain ⟨fs, hfs, hrun⟩ := hx T.fs hT
  refine ⟨{ T with fs := fs }, ⟨hfs, by rw [hS]⟩, ?_⟩
  rw [reportAs_apply, hrun]
  cases r <;> rfl

theorem gives_passOn {x : Run σ FsError α} {a : α} (hx : Gives inv x (.ok a)) :
    Gives (OnFs inv S) (passOn x) (.ok a) := by
  intro T ⟨hT, hS⟩
  obtain ⟨fs, hfs, hrun⟩ := hx T.fs hT
  refine ⟨{ T with fs := fs }, ⟨hfs, by rw [hS]⟩, ?_⟩
  rw [passOn_apply, hrun]
  rfl

theorem gives_check (h : Uri.isAddress uri = true) : Gives (OnFs inv S) (check uri) (.ok ()) :=
  fun T hT => ⟨T, hT, check_apply h T⟩

theorem gives_pathOf (inv : σ → Prop) (S : Service σ η) (uri : String) :
    Gives (OnFs inv S) (pathOf uri) (.ok ⟨Uri.pathOf S.bundle uri⟩) := by
  intro T hT
  refine ⟨T, hT, ?_⟩
  rw [pathOf_apply, hT.2]
  rfl

/-! ## One entry -/

/-- The document of an entry, if its stat record can be read. -/
def sight (uri : String) (look : Entry → Except FsError Stat) (e : Entry) : Except FsError Document :=
  (look e).map (Document.ofStat (Uri.child uri e.name) e.name)

/-- The documents of those entries whose stat records can be read. -/
def shown (uri : String) (look : Entry → Except FsError Stat) (entries : List Entry) : List Document :=
  entries.filterMap fun e => (sight uri look e).toOption

theorem sight_ok {e : Entry} {stat : Stat} (h : look e = .ok stat) :
    sight uri look e = .ok (Document.ofStat (Uri.child uri e.name) e.name stat) := by
  rw [sight, h]
  rfl

theorem sight_error {e : Entry} {cause : FsError} (h : look e = .error cause) :
    sight uri look e = .error cause := by
  rw [sight, h]
  rfl

theorem shown_cons {e : Entry} {d : Document} (h : sight uri look e = .ok d) (rest : List Entry) :
    shown uri look (e :: rest) = d :: shown uri look rest := by
  rw [shown, List.filterMap_cons, h]
  rfl

theorem gives_document {e : Entry} (h : Gives inv (b.call (.stat (path.join e.name))) (look e)) :
    Gives (OnFs inv S) (document b uri path e) ((sight uri look e).mapError report) := by
  have hstat := gives_reportAs (S := S) h.ofStep
  cases hlook : look e with
  | error cause =>
    rw [hlook] at hstat
    rw [sight_error hlook]
    exact hstat.bind_error
  | ok stat =>
    rw [hlook] at hstat
    rw [sight_ok hlook]
    exact hstat.bind (.pure _)

/-! ## One turn of a listing -/

section

variable {filter : Option Filter} {offset stop position : Nat} {e : Entry} {d : Document} {rest : List Entry}
  (hstop : ¬ stop ≤ position) (hlooks : ¬ (filter.isNone && decide (position < offset)) = true)

include hstop hlooks

/-- A listing ends at an entry that it looks at in vain. -/
theorem gives_window_error {cause : Stop ServiceError}
    (h : Gives (OnFs inv S) (document b uri path e) (.error cause)) :
    Gives (OnFs inv S) (window b uri path filter offset stop position (e :: rest)) (.error cause) := by
  rw [window, if_neg hstop, if_neg hlooks]
  exact h.bind_error

/-- An entry that does not pass leaves no trace. -/
theorem gives_window_rejected {r : Except (Stop ServiceError) (List Document)}
    (h : Gives (OnFs inv S) (document b uri path e) (.ok d)) (hpasses : ¬ passes filter d = true)
    (hrest : Gives (OnFs inv S) (window b uri path filter offset stop position rest) r) :
    Gives (OnFs inv S) (window b uri path filter offset stop position (e :: rest)) r := by
  rw [window, if_neg hstop, if_neg hlooks]
  refine h.bind ?_
  change Gives _ (if passes filter d = true then _ else _) _
  rw [if_neg hpasses]
  exact hrest

/-- An entry that passes is counted, and shown if enough were counted before. -/
theorem gives_window_accepted {r : Except (Stop ServiceError) (List Document)}
    (h : Gives (OnFs inv S) (document b uri path e) (.ok d)) (hpasses : passes filter d = true)
    (hrest : Gives (OnFs inv S) (window b uri path filter offset stop (position + 1) rest) r) :
    Gives (OnFs inv S) (window b uri path filter offset stop position (e :: rest))
      (r.map fun more => if offset ≤ position then d :: more else more) := by
  rw [window, if_neg hstop, if_neg hlooks]
  refine h.bind ?_
  change Gives _ (if passes filter d = true then _ else _) _
  rw [if_pos hpasses]
  cases r with
  | error cause => exact hrest.bind_error
  | ok more => exact hrest.bind (.pure _)

end

/-! ## Without criteria -/

/-- All entries of a list can be shown, or one of them cannot. -/
theorem mapM_sight (uri : String) (look : Entry → Except FsError Stat) (entries : List Entry) :
    ((∀ e ∈ entries, ∃ stat, look e = .ok stat) ∧
      entries.mapM (sight uri look) = .ok (shown uri look entries)) ∨
    ∃ e ∈ entries, ∃ cause first, look e = .error cause ∧ entries.mapM (sight uri look) = .error first := by
  induction entries with
  | nil => exact .inl ⟨fun _ he => absurd he List.not_mem_nil, rfl⟩
  | cons e rest ih =>
    rw [List.mapM_cons]
    cases hlook : look e with
    | error cause =>
      refine .inr ⟨e, List.mem_cons_self, cause, cause, hlook, ?_⟩
      rw [sight_error hlook]
      rfl
    | ok stat =>
      rw [sight_ok hlook]
      rcases ih with ⟨hall, hrest⟩ | ⟨e', he', cause, first, hcause, hrest⟩
      · refine .inl ⟨List.forall_mem_cons.mpr ⟨⟨stat, hlook⟩, hall⟩, ?_⟩
        rw [hrest, shown_cons (sight_ok hlook)]
        rfl
      · refine .inr ⟨e', List.mem_cons_of_mem e he', cause, first, hcause, ?_⟩
        rw [hrest]
        rfl

/-- Without criteria a listing looks at the entries in its window and at no others. -/
theorem gives_window_none (uri : String)
    (h : ∀ e ∈ entries, Gives inv (b.call (.stat (path.join e.name))) (look e)) (offset stop position : Nat) :
    Gives (OnFs inv S) (window b uri path none offset stop position entries)
      ((((entries.take (stop - position)).drop (offset - position)).mapM (sight uri look)).mapError report) := by
  -- Without criteria the position moves on with every entry, so that the window comes one entry closer.
  induction entries generalizing position with
  | nil =>
    rw [List.take_nil, List.drop_nil]
    exact .pure []
  | cons e rest ih =>
    have hrest := ih (fun d hd => h d (List.mem_cons_of_mem e hd)) (position + 1)
    by_cases hstop : stop ≤ position
    · rw [window, if_pos hstop, Nat.sub_eq_zero_of_le hstop, List.take_zero, List.drop_nil]
      exact .pure []
    · have htake : stop - position = stop - (position + 1) + 1 := by omega
      rw [htake, List.take_succ_cons]
      by_cases hbefore : position < offset
      · have hskips : ((none : Option Filter).isNone && decide (position < offset)) = true :=
          decide_eq_true hbefore
        have hdrop : offset - position = offset - (position + 1) + 1 := by omega
        rw [window, if_neg hstop, if_pos hskips, hdrop, List.drop_succ_cons]
        exact hrest
      · have hlooks : ¬ ((none : Option Filter).isNone && decide (position < offset)) = true := fun hskips =>
          hbefore (of_decide_eq_true hskips)
        have hoffset : offset ≤ position := Nat.le_of_not_lt hbefore
        have hdocument : Gives (OnFs inv S) (document b uri path e) ((sight uri look e).mapError report) :=
          gives_document (h e List.mem_cons_self)
        rw [Nat.sub_eq_zero_of_le (Nat.le_succ_of_le hoffset), List.drop_zero] at hrest
        rw [Nat.sub_eq_zero_of_le hoffset, List.drop_zero, List.mapM_cons]
        cases hsight : sight uri look e with
        | error cause =>
          rw [hsight] at hdocument
          exact gives_window_error hstop hlooks hdocument
        | ok d =>
          rw [hsight] at hdocument
          have hturn := gives_window_accepted hstop hlooks hdocument rfl hrest
          simp only [if_pos hoffset] at hturn
          cases hmore : (rest.take (stop - (position + 1))).mapM (sight uri look) with
          | error cause =>
            rw [hmore] at hturn
            exact hturn
          | ok more =>
            rw [hmore] at hturn
            exact hturn

/-! ## With criteria -/

/-- Whether an entry that cannot be read comes before `room` others have been found to pass. -/
def Bars (uri : String) (look : Entry → Except FsError Stat) (f : Filter) (room : Nat)
    (entries : List Entry) : Prop :=
  ∃ i e cause, entries[i]? = some e ∧ look e = .error cause ∧
    ((shown uri look (entries.take i)).filter f.accepts).length < room

theorem not_bars_zero : ¬ Bars uri look f 0 entries := fun ⟨_, _, _, _, _, h⟩ => Nat.not_lt_zero _ h

theorem bars_error {e : Entry} {cause : FsError} (h : look e = .error cause) {room : Nat} (hroom : 0 < room)
    (rest : List Entry) : Bars uri look f room (e :: rest) := ⟨0, e, cause, rfl, h, hroom⟩

/-- An entry that can be read stands in nobody's way; if it passes it takes up room. -/
theorem bars_ok {e : Entry} {stat : Stat} {d : Document} (h : look e = .ok stat) (hd : sight uri look e = .ok d)
    (room : Nat) (rest : List Entry) :
    Bars uri look f room (e :: rest) ↔ Bars uri look f (if f.accepts d then room - 1 else room) rest := by
  have hcount : ∀ i, ((shown uri look ((e :: rest).take (i + 1))).filter f.accepts).length < room ↔
      ((shown uri look (rest.take i)).filter f.accepts).length < if f.accepts d then room - 1 else room := by
    intro i
    rw [List.take_succ_cons, shown_cons hd, List.filter_cons]
    split
    · rw [List.length_cons]
      exact Nat.lt_sub_iff_add_lt.symm
    · exact Iff.rfl
  constructor
  · rintro ⟨i, e', cause, hi, hcause, hlt⟩
    cases i with
    | zero =>
      obtain rfl := Option.some.inj hi
      cases h.symm.trans hcause
    | succ i => exact ⟨i, e', cause, hi, hcause, (hcount i).mp hlt⟩
  · rintro ⟨i, e', cause, hi, hcause, hlt⟩
    exact ⟨i + 1, e', cause, hi, hcause, (hcount i).mpr hlt⟩

/-- What is cut out of a list begins with its first element if that is not left out. -/
theorem cut_cons {offset stop position : Nat} (hstop : position < stop) (d : Document) (l : List Document) :
    ((d :: l).take (stop - position)).drop (offset - position)
      = if offset ≤ position then d :: (l.take (stop - (position + 1))).drop (offset - (position + 1))
        else (l.take (stop - (position + 1))).drop (offset - (position + 1)) := by
  have htake : stop - position = stop - (position + 1) + 1 := by omega
  rw [htake, List.take_succ_cons]
  split
  · next hoffset =>
    rw [Nat.sub_eq_zero_of_le hoffset, Nat.sub_eq_zero_of_le (Nat.le_succ_of_le hoffset), List.drop_zero,
      List.drop_zero]
  · next hoffset =>
    have hdrop : offset - position = offset - (position + 1) + 1 := by omega
    rw [hdrop, List.drop_succ_cons]

/-- With criteria a listing looks at every entry until it has found as many as its window ends at. -/
theorem gives_window_some (uri : String) (f : Filter)
    (h : ∀ e ∈ entries, Gives inv (b.call (.stat (path.join e.name))) (look e)) (offset stop position : Nat) :
    (Bars uri look f (stop - position) entries ∧ ∃ cause,
      Gives (OnFs inv S) (window b uri path (some f) offset stop position entries) (.error (report cause))) ∨
    (¬ Bars uri look f (stop - position) entries ∧
      Gives (OnFs inv S) (window b uri path (some f) offset stop position entries)
        (.ok ((((shown uri look entries).filter f.accepts).take (stop - position)).drop (offset - position)))) := by
  -- With criteria only an entry that passes moves the position on; one that is left out leaves the room as it is.
  induction entries generalizing position with
  | nil =>
    refine .inr ⟨?_, ?_⟩
    · rintro ⟨i, e, cause, hi, _⟩
      rw [List.getElem?_nil] at hi
      cases hi
    · rw [shown, List.filterMap_nil, List.filter_nil, List.take_nil, List.drop_nil]
      exact .pure []
  | cons e rest ih =>
    by_cases hstop : stop ≤ position
    · rw [window, if_pos hstop, Nat.sub_eq_zero_of_le hstop, List.take_zero, List.drop_nil]
      exact .inr ⟨not_bars_zero, .pure []⟩
    · have hlooks : ¬ ((some f).isNone && decide (position < offset)) = true := Bool.false_ne_true
      have hrest := ih fun d hd => h d (List.mem_cons_of_mem e hd)
      have hdocument : Gives (OnFs inv S) (document b uri path e) ((sight uri look e).mapError report) :=
        gives_document (h e List.mem_cons_self)
      cases hlook : look e with
      | error cause =>
        rw [sight_error hlook] at hdocument
        exact .inl ⟨bars_error hlook (Nat.sub_pos_of_lt (Nat.lt_of_not_le hstop)) rest, cause,
          gives_window_error hstop hlooks hdocument⟩
      | ok stat =>
        have hsight : sight uri look e = .ok (Document.ofStat (Uri.child uri e.name) e.name stat) := sight_ok hlook
        rw [hsight] at hdocument
        rw [bars_ok hlook hsight, shown_cons hsight]
        by_cases hpasses : f.accepts (Document.ofStat (Uri.child uri e.name) e.name stat) = true
        · rw [if_pos hpasses, List.filter_cons_of_pos hpasses, Nat.sub_sub]
          refine (hrest (position + 1)).imp (And.imp_right ?_) (And.imp_right ?_)
          · rintro ⟨cause, hmore⟩
            exact ⟨cause, gives_window_accepted hstop hlooks hdocument hpasses hmore⟩
          · intro hmore
            rw [cut_cons (Nat.lt_of_not_le hstop)]
            exact gives_window_accepted hstop hlooks hdocument hpasses hmore
        · rw [if_neg hpasses, List.filter_cons_of_neg hpasses]
          refine (hrest position).imp (And.imp_right ?_) (And.imp_right ?_)
          · rintro ⟨cause, hmore⟩
            exact ⟨cause, gives_window_rejected hstop hlooks hdocument hpasses hmore⟩
          · exact gives_window_rejected hstop hlooks hdocument hpasses

/-! ## The whole listing -/

/-- Whether a listing comes to an entry that cannot be read: without criteria to one in its window, with
criteria to one before it has found as many as its window ends at. -/
def Blocked (uri : String) (look : Entry → Except FsError Stat) (filter : Option Filter) (offset count : Nat)
    (entries : List Entry) : Prop :=
  ∃ i e cause, entries[i]? = some e ∧ look e = .error cause ∧
    match filter with
    | none => offset ≤ i ∧ i < offset + count
    | some f => ((shown uri look (entries.take i)).filter f.accepts).length < offset + count

/-- What a listing shows if it comes to no such entry. -/
def excerpt (uri : String) (look : Entry → Except FsError Stat) (filter : Option Filter) (offset count : Nat)
    (entries : List Entry) : List Document :=
  match filter with
  | none => shown uri look ((entries.drop offset).take count)
  | some f => (((shown uri look entries).filter f.accepts).drop offset).take count

/-- An end that is cut off to a word lies behind everything that a word can count. -/
theorem lt_windowEnd_iff {n : Nat} (h : n + 1 < UInt64.size) (offset count : Nat) :
    n < windowEnd offset count ↔ n < offset + count := by
  rw [windowEnd, Nat.lt_min]
  exact and_iff_left (Nat.lt_sub_of_add_lt h)

theorem take_windowEnd {l : List α} (h : l.length < UInt64.size) (offset count : Nat) :
    (l.take (windowEnd offset count)).drop offset = (l.drop offset).take count := by
  have hsame : l.take (windowEnd offset count) = l.take (offset + count) := by
    rw [List.take_eq_take_iff, windowEnd]
    omega
  rw [hsame, List.drop_take, Nat.add_sub_cancel_left]

/-- The entries in a window are those whose places are. -/
theorem mem_window_iff {l : List α} {a : α} {offset count : Nat} :
    a ∈ (l.drop offset).take count ↔ ∃ i, l[i]? = some a ∧ offset ≤ i ∧ i < offset + count := by
  rw [List.mem_iff_getElem?]
  constructor
  · rintro ⟨j, hj⟩
    rw [List.getElem?_take] at hj
    split at hj
    · next hlt =>
      rw [List.getElem?_drop] at hj
      exact ⟨offset + j, hj, Nat.le_add_right _ _, Nat.add_lt_add_left hlt _⟩
    · cases hj
  · rintro ⟨i, hi, hle, hlt⟩
    refine ⟨i - offset, ?_⟩
    rw [List.getElem?_take, if_pos (Nat.sub_lt_left_of_lt_add hle hlt), List.getElem?_drop,
      Nat.add_sub_cancel' hle]
    exact hi

theorem length_shown_le (uri : String) (look : Entry → Except FsError Stat) (entries : List Entry) (f : Filter) :
    ((shown uri look entries).filter f.accepts).length ≤ entries.length :=
  Nat.le_trans (List.length_filter_le _ _) (List.length_filterMap_le _ _)

/-- A window that a word can count is blocked, or shows its excerpt. -/
theorem gives_window (hlength : entries.length < UInt64.size)
    (h : ∀ e ∈ entries, Gives inv (b.call (.stat (path.join e.name))) (look e)) (filter : Option Filter)
    (offset count : Nat) :
    (Blocked uri look filter offset count entries ∧ ∃ cause,
      Gives (OnFs inv S) (window b uri path filter offset (windowEnd offset count) 0 entries)
        (.error (report cause))) ∨
    (¬ Blocked uri look filter offset count entries ∧
      Gives (OnFs inv S) (window b uri path filter offset (windowEnd offset count) 0 entries)
        (.ok (excerpt uri look filter offset count entries))) := by
  cases filter with
  | none =>
    have hgives := gives_window_none (S := S) uri h offset (windowEnd offset count) 0
    rw [Nat.sub_zero, Nat.sub_zero, take_windowEnd hlength] at hgives
    rcases mapM_sight uri look ((entries.drop offset).take count) with
      ⟨hall, hshown⟩ | ⟨e, he, cause, first, hcause, hfirst⟩
    · rw [hshown] at hgives
      refine .inr ⟨?_, hgives⟩
      rintro ⟨i, e, cause, hi, hcause, hle, hlt⟩
      obtain ⟨stat, hstat⟩ := hall e (mem_window_iff.mpr ⟨i, hi, hle, hlt⟩)
      cases hstat.symm.trans hcause
    · rw [hfirst] at hgives
      obtain ⟨i, hi, hwithin⟩ := mem_window_iff.mp he
      exact .inl ⟨⟨i, e, cause, hi, hcause, hwithin⟩, first, hgives⟩
  | some f =>
    have hblocked : Bars uri look f (windowEnd offset count) entries ↔
        Blocked uri look (some f) offset count entries := by
      refine exists_congr fun i => exists_congr fun e => exists_congr fun cause => ?_
      refine and_congr_right fun hi => and_congr_right fun _ => lt_windowEnd_iff ?_ offset count
      have hlt := (List.getElem?_eq_some_iff.mp hi).1
      have hle := length_shown_le uri look (entries.take i) f
      rw [List.length_take] at hle
      omega
    have hgives := gives_window_some (S := S) uri f h offset (windowEnd offset count) 0
    have hlist := Nat.lt_of_le_of_lt (length_shown_le uri look entries f) hlength
    rw [Nat.sub_zero, Nat.sub_zero, take_windowEnd hlist, hblocked] at hgives
    exact hgives

/-- How a backend answers a listing as long as an invariant holds: at the path there is a directory with
these entries, and their stat records, where they can be read, are those that `look` gives. -/
structure Presents (b : Backend σ η) (inv : σ → Prop) (path : Path) (entries : List Entry)
    (look : Entry → Except FsError Stat) : Prop where
  stat : ∃ stat, stat.isDir = true ∧ Gives inv (b.call (.stat path)) (.ok stat)
  list : Gives inv (b.call (.list path)) (.ok entries)
  entry : ∀ e ∈ entries, Gives inv (b.call (.stat (path.join e.name))) (look e)

/-- A directory in memory is presented as its calls are answered, whichever of them are refused. -/
theorem presents_answers {refusal : Refusal} {s : Store} {stat : Stat} (hdir : stat.isDir = true)
    (hstat : answer refusal s (.stat path) = .ok stat)
    (hlist : answer refusal s (.list path) = .ok entries) :
    Presents (backend.refusing refusal) (· = s) path entries
      fun e => answer refusal s (.stat (path.join e.name)) where
  stat := ⟨stat, hdir, hstat ▸ gives_stat refusal s path⟩
  list := hlist ▸ gives_list refusal s path
  entry e _ := gives_stat refusal s (path.join e.name)

/-- A listing of a directory is blocked, or shows its excerpt. -/
theorem gives_listFiles (haddress : Uri.isAddress uri = true)
    (h : Presents b inv ⟨Uri.pathOf S.bundle uri⟩ entries look) (hlength : entries.length < UInt64.size)
    (filter : Option Filter) (offset count : Nat) :
    (Blocked uri look (filter.filter Filter.hasCriteria) offset count entries ∧ ∃ cause,
      Gives (OnFs inv S) (listFiles b uri offset count filter) (.error (report cause))) ∨
    (¬ Blocked uri look (filter.filter Filter.hasCriteria) offset count entries ∧
      Gives (OnFs inv S) (listFiles b uri offset count filter)
        (.ok (excerpt uri look (filter.filter Filter.hasCriteria) offset count entries))) := by
  have hbegin : ∀ r, Gives (OnFs inv S) (window b uri ⟨Uri.pathOf S.bundle uri⟩
      (filter.filter Filter.hasCriteria) offset (windowEnd offset count) 0 entries) r →
      Gives (OnFs inv S) (listFiles b uri offset count filter) r := by
    intro r hwindow
    obtain ⟨stat, hdir, hstat⟩ := h.stat
    refine (gives_check haddress).bind ((gives_pathOf inv S uri).bind ((gives_passOn hstat.ofStep).bind ?_))
    rw [hdir]
    exact (gives_reportAs h.list.ofStep).bind hwindow
  refine (gives_window hlength h.entry _ offset count).imp (And.imp_right ?_) (And.imp_right (hbegin _))
  exact fun ⟨cause, hgives⟩ => ⟨cause, hbegin _ hgives⟩

/-! ## Entries that can all be read -/

/-- A filter without criteria lets everything pass, so that it need not be asked. -/
theorem passes_hasCriteria (filter : Option Filter) (d : Document) :
    passes (filter.filter Filter.hasCriteria) d = passes filter d := by
  cases filter with
  | none => rfl
  | some f =>
    by_cases hf : f.hasCriteria = true
    · rw [Option.filter_some, if_pos hf]
    · rw [Option.filter_some, if_neg hf]
      simp only [Filter.hasCriteria, Bool.or_eq_true, Bool.not_eq_true', bne_iff_ne, not_or, Bool.not_eq_false,
        not_not] at hf
      obtain ⟨⟨⟨hsuffixes, hnames⟩, hsize⟩, hhidden⟩ := hf
      simp [passes, Filter.accepts, hsuffixes, hnames, hsize, hhidden]

/-- The documents of entries with given stat records. -/
def described (uri : String) (stats : Entry → Stat) (entries : List Entry) : List Document :=
  entries.map fun e => Document.ofStat (Uri.child uri e.name) e.name (stats e)

section

variable {stats : Entry → Stat} (hall : ∀ e ∈ entries, look e = .ok (stats e))

include hall

theorem shown_eq_described : shown uri look entries = described uri stats entries := by
  rw [described, ← List.filterMap_eq_map]
  refine List.filterMap_congr fun e he => ?_
  rw [sight_ok (hall e he)]
  rfl

theorem not_blocked (filter : Option Filter) (offset count : Nat) :
    ¬ Blocked uri look filter offset count entries := by
  rintro ⟨i, e, cause, hi, hcause, _⟩
  cases (hall e (List.mem_of_getElem? hi)).symm.trans hcause

/-- What a listing shows is cut out of the documents that pass. -/
theorem excerpt_eq (filter : Option Filter) (offset count : Nat) :
    excerpt uri look filter offset count entries
      = (((described uri stats entries).filter (passes filter)).drop offset).take count := by
  cases filter with
  | some f =>
    rw [excerpt, shown_eq_described hall]
    rfl
  | none =>
    have hwindow : ∀ e ∈ (entries.drop offset).take count, look e = .ok (stats e) := fun e he =>
      hall e (List.mem_of_mem_drop (List.mem_of_mem_take he))
    have hpasses : (described uri stats entries).filter (passes none) = described uri stats entries :=
      List.filter_eq_self.mpr fun _ _ => rfl
    rw [excerpt, shown_eq_described hwindow, hpasses, described, List.map_take, List.map_drop, described]

end

/-! ## One window after the other -/

/-- Requests for the entries that come next, each of them for so many: the documents that each gives. -/
def listPages (b : Backend σ η) (uri : String) (filter : Option Filter) :
    Nat → List Nat → Op σ η (List (List Document))
  | _, [] => pure []
  | offset, count :: counts => do
    let page ← listFiles b uri offset count filter
    let pages ← listPages b uri filter (offset + count) counts
    pure (page :: pages)

/-- Windows that follow each other are cut out of a listing as one window is. -/
theorem gives_listPages {filter : Option Filter} {full : List Document}
    (h : ∀ offset count, Gives (OnFs inv S) (listFiles b uri offset count filter)
      (.ok ((full.drop offset).take count))) (offset : Nat) (counts : List Nat) :
    ∃ pages, Gives (OnFs inv S) (listPages b uri filter offset counts) (.ok pages) ∧
      pages.flatten = (full.drop offset).take counts.sum := by
  induction counts generalizing offset with
  | nil => exact ⟨[], .pure [], List.take_zero.symm⟩
  | cons count counts ih =>
    obtain ⟨pages, hpages, hflat⟩ := ih (offset + count)
    refine ⟨_, (h offset count).bind (hpages.bind (.pure _)), ?_⟩
    rw [List.flatten_cons, hflat, List.sum_cons, List.take_add, List.drop_drop]

/-- Every window on a directory is answered, whatever the offset and the count and however many entries there
are, as long as a word can count them. It is refused exactly if it is blocked by an entry that cannot be
read, and shows its excerpt otherwise. If all entries can be read this is what the window cuts out of the
documents that pass, in listing order; windows that follow each other then show the listing piece by piece,
and all of it once they are long enough. -/
theorem listFiles_windows (haddress : Uri.isAddress uri = true) (hinv : inv S.fs)
    (h : Presents b inv ⟨Uri.pathOf S.bundle uri⟩ entries look) (hlength : entries.length < UInt64.size)
    (filter : Option Filter) :
    (∀ offset count, ∃ reply fs, inv fs ∧
      Reply.ofRun [] (listFiles b uri offset count filter) S = some (reply, { S with fs := fs }) ∧
      (reply.code = 14300004 ↔ Blocked uri look (filter.filter Filter.hasCriteria) offset count entries) ∧
      (reply.code ≠ 14300004 →
        reply = .success (excerpt uri look (filter.filter Filter.hasCriteria) offset count entries))) ∧
    ∀ (stats : Entry → Stat) (full : List Document), (∀ e ∈ entries, look e = .ok (stats e)) →
      full = (described uri stats entries).filter (passes filter) →
      (∀ offset count, ∃ fs, inv fs ∧ Reply.ofRun [] (listFiles b uri offset count filter) S
        = some (.success ((full.drop offset).take count), { S with fs := fs })) ∧
      ∀ counts, ∃ pages fs, inv fs ∧
        (listPages b uri filter 0 counts).outcome S = some (.ok pages, { S with fs := fs }) ∧
        pages.flatten = full.take counts.sum ∧ (full.length ≤ counts.sum → pages.flatten = full) := by
  have hS : OnFs inv S S := ⟨hinv, rfl⟩
  refine ⟨fun offset count => ?_, fun stats full hall hfull => ?_⟩
  · rcases gives_listFiles haddress h hlength filter offset count with
      ⟨hblocked, cause, hgives⟩ | ⟨hfree, hgives⟩
    · obtain ⟨T, ⟨hT, hsame⟩, hrun⟩ := hgives S hS
      exact ⟨_, T.fs, hT, hsame ▸ Reply.ofRun_failed hrun [], iff_of_true rfl hblocked, fun hcode =>
        absurd rfl hcode⟩
    · obtain ⟨T, ⟨hT, hsame⟩, hrun⟩ := hgives S hS
      have hcode : StatusCode.success ≠ 14300004 := by decide
      exact ⟨_, T.fs, hT, hsame ▸ Reply.ofRun_ok hrun [], iff_of_false hcode hfree, fun _ => rfl⟩
  · have hwindow : ∀ offset count, Gives (OnFs inv S) (listFiles b uri offset count filter)
        (.ok ((full.drop offset).take count)) := by
      intro offset count
      rcases gives_listFiles haddress h hlength filter offset count with ⟨hblocked, _⟩ | ⟨_, hgives⟩
      · exact absurd hblocked (not_blocked hall _ offset count)
      · rwa [excerpt_eq hall, funext (passes_hasCriteria filter), ← hfull] at hgives
    refine ⟨fun offset count => ?_, fun counts => ?_⟩
    · obtain ⟨T, ⟨hT, hsame⟩, hrun⟩ := hwindow offset count S hS
      exact ⟨T.fs, hT, hsame ▸ Reply.ofRun_ok hrun []⟩
    · obtain ⟨pages, hpages, hflat⟩ := gives_listPages hwindow 0 counts
      obtain ⟨T, ⟨hT, hsame⟩, hrun⟩ := hpages S hS
      refine ⟨pages, T.fs, hT, hsame ▸ Run.outcome_ok hrun, hflat, fun hlong => ?_⟩
      rw [hflat, List.drop_zero, List.take_of_length_le hlong]

/-- The stat record of the second of three files cannot be read. A window behind that file shows the third,
and one that holds it is refused; with a criterion the window behind it is refused too. -/
theorem listFiles_windows_unreadable :
    ∃ (b : Backend Store OpenFile) (S : Service Store OpenFile) (shows holds narrows : Reply (List Document)),
      (Reply.ofRun [] (listFiles b "datashare:///r" 2 5 none) S).map Prod.fst = some shows ∧
      shows = .success [⟨"datashare:///r/c", "c", 13, 2, 0, ""⟩] ∧
      (Reply.ofRun [] (listFiles b "datashare:///r" 1 1 none) S).map Prod.fst = some holds ∧
      holds.code = 14300004 ∧
      (Reply.ofRun [] (listFiles b "datashare:///r" 2 5 (some { suffixes := ["c"] })) S).map Prod.fst
        = some narrows ∧ narrows.code = 14300004 := by
  let entries : List Entry := [⟨"a", .file⟩, ⟨"b", .file⟩, ⟨"c", .file⟩]
  obtain ⟨s, hs⟩ : ∃ s, s = storeAfter [.createDir ⟨"/r"⟩, .write ⟨"/r/a"⟩ [7], .write ⟨"/r/b"⟩ [7],
      .write ⟨"/r/c"⟩ [7, 7]] := ⟨_, rfl⟩
  obtain ⟨refusal, hrefusal⟩ : ∃ refusal, refusal = Refusal.of [("metadata", "/r/b")] .outOfSpace := ⟨_, rfl⟩
  obtain ⟨path, hpath⟩ : ∃ path, path = Path.mk (Uri.pathOf "app" "datashare:///r") := ⟨_, rfl⟩
  have hstat : answer refusal s (.stat path) = .ok (Node.dir 2 []).stat := by
    rw [hs, hrefusal, hpath]
    decide +kernel
  have hlist : answer refusal s (.list path) = .ok entries := by
    rw [hs, hrefusal, hpath]
    decide +kernel
  have hunreadable : answer refusal s (.stat (path.join "b")) = .error .outOfSpace := by
    rw [hs, hrefusal, hpath]
    decide +kernel
  have hreadable : answer refusal s (.stat (path.join "c")) = .ok (Node.file 5 [7, 7]).stat := by
    rw [hs, hrefusal, hpath]
    decide +kernel
  let look (e : Entry) : Except FsError Stat := answer refusal s (.stat (path.join e.name))
  have hpresents : Presents (backend.refusing refusal) (· = s) ⟨Uri.pathOf "app" "datashare:///r"⟩ entries look :=
    hpath ▸ presents_answers rfl hstat hlist
  have haddress : Uri.isAddress "datashare:///r" = true := by decide +kernel
  have hlength : entries.length < UInt64.size := (by decide : 3 < UInt64.size)
  have hwindows := @listFiles_windows Store OpenFile (backend.refusing refusal) (· = s)
    ⟨"app", s, .empty, .empty⟩ "datashare:///r" look entries haddress rfl hpresents hlength
  have hfree : ¬ Blocked "datashare:///r" look none 2 5 entries := by
    rintro ⟨i, e, cause, hi, hcause, hle, _⟩
    have hlt : i < 3 := (List.getElem?_eq_some_iff.mp hi).1
    obtain rfl : i = 2 := by omega
    cases hi
    cases hreadable.symm.trans hcause
  have hblocked : Blocked "datashare:///r" look none 1 1 entries :=
    ⟨1, ⟨"b", .file⟩, .outOfSpace, rfl, hunreadable, Nat.le_refl 1, by decide⟩
  have hbarred : Blocked "datashare:///r" look (some { suffixes := ["c"] }) 2 5 entries :=
    ⟨1, ⟨"b", .file⟩, .outOfSpace, rfl, hunreadable,
      Nat.lt_of_le_of_lt (length_shown_le _ look _ _) (by decide)⟩
  obtain ⟨shows, _, _, hshows, hcode, hvalue⟩ := (hwindows none).1 2 5
  obtain ⟨holds, _, _, hholds, hcode', _⟩ := (hwindows none).1 1 1
  obtain ⟨narrows, _, _, hnarrows, hcode'', _⟩ := (hwindows (some { suffixes := ["c"] })).1 2 5
  refine ⟨backend.refusing refusal, ⟨"app", s, .empty, .empty⟩, shows, holds, narrows, ?_, ?_, ?_,
    hcode'.mpr hblocked, ?_, hcode''.mpr hbarred⟩
  · rw [hshows, Option.map_some]
  · rw [hvalue (hcode.not.mpr hfree)]
    refine congrArg Reply.success ?_
    change shown "datashare:///r" look [⟨"c", .file⟩] = _
    rw [shown_cons (sight_ok hreadable)]
    have hdocument : Document.ofStat (Uri.child "datashare:///r" "c") "c" (Node.file 5 [7, 7]).stat
        = ⟨"datashare:///r/c", "c", 13, 2, 0, ""⟩ := by decide +kernel
    exact congrArg (· :: []) hdocument
  · rw [hholds, Option.map_some]
  · rw [hnarrows, Option.map_some]

end FileProvider.Service
