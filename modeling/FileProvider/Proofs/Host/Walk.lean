import FileProvider.Host.Tree
import FileProvider.Proofs.Path.Apart
import FileProvider.Proofs.Path.Location

/-!
# How walks on the host end

A walk takes one step after the other, and every link that it follows puts the steps of the link before
those that are left. `Walks` says once what can happen at a step; that `Host.walk` ends as it says is
`walks_walk`, and everything else about walks is read off it: the place that is reached, where something
may be missing, and the few errors there are. `Leads` forgets the checks on the way and keeps where a
walk may get to, which is what a caller can touch.
-/

set_option autoImplicit false

namespace FileProvider.Host

variable {h k : Host} {ending : Ending}

/-- How a walk can end. -/
inductive Walks (h : Host) (ending : Ending) :
    Location → List String → Except IoError Place → Prop where
  | done (here : Location) : Walks h ending here [] (.ok (here, h.find? here))
  /-- Only in a directory there is a next step. -/
  | blocked {here : Location} {step : String} {rest : List String} (hdir : h.find? here ≠ some .dir) :
      Walks h ending here (step :: rest) (.error (.os Errno.notADirectory))
  | stay {here : Location} {step : String} {rest : List String} {r : Except IoError Place}
      (hdir : h.find? here = some .dir) (hstep : step = "." ∨ step = "")
      (hrest : Walks h ending here rest r) : Walks h ending here (step :: rest) r
  | up {here : Location} {rest : List String} {r : Except IoError Place}
      (hdir : h.find? here = some .dir) (hrest : Walks h ending here.dropLast rest r) :
      Walks h ending here (".." :: rest) r
  /-- What may have to be created cannot have a slash behind it. -/
  | slash {here : Location} {step : String} (hdir : h.find? here = some .dir)
      (hending : ending = .created) : Walks h ending here [step, ""] (.error (.os Errno.isADirectory))
  | long {here : Location} {step : String} {rest : List String} (hdir : h.find? here = some .dir)
      (hlong : nameLimit < Name.size step) :
      Walks h ending here (step :: rest) (.error (.os Errno.nameTooLong))
  | missing {here : Location} {step : String} (hdir : h.find? here = some .dir)
      (hstep : IsChildStep step) (hshort : Name.size step ≤ nameLimit)
      (hnone : h.find? (here ++ [step]) = none) : Walks h ending here [step] (.ok (here ++ [step], none))
  | lost {here : Location} {step : String} {rest : List String} (hdir : h.find? here = some .dir)
      (hrest : rest ≠ []) (hshort : Name.size step ≤ nameLimit)
      (hnone : h.find? (here ++ [step]) = none) :
      Walks h ending here (step :: rest) (.error (.os Errno.noEntry))
  | kept {here : Location} {step : String} {target : Path} (hdir : h.find? here = some .dir)
      (hstep : IsChildStep step) (hlink : h.find? (here ++ [step]) = some (.link target))
      (hending : ending = .kept) : Walks h ending here [step] (.ok (here ++ [step], some (.link target)))
  /-- Too many links were followed before this one. -/
  | worn {here : Location} {step : String} {target : Path} {rest : List String}
      (hlink : h.find? (here ++ [step]) = some (.link target)) :
      Walks h ending here (step :: rest) (.error (.os Errno.tooManyLinks))
  | follow {here : Location} {step : String} {target : Path} {rest : List String} {r : Except IoError Place}
      (hdir : h.find? here = some .dir) (hlink : h.find? (here ++ [step]) = some (.link target))
      (hgoes : rest ≠ [] ∨ ending ≠ .kept)
      (hrest : Walks h ending (linkSteps here target).1 ((linkSteps here target).2 ++ rest) r) :
      Walks h ending here (step :: rest) r
  | child {here : Location} {step : String} {rest : List String} {node : HostNode}
      {r : Except IoError Place} (hdir : h.find? here = some .dir) (hstep : IsChildStep step)
      (hshort : Name.size step ≤ nameLimit) (hnode : h.find? (here ++ [step]) = some node)
      (hplain : ∀ target, node ≠ .link target) (hrest : Walks h ending (here ++ [step]) rest r) :
      Walks h ending here (step :: rest) r

/-! ## Walks end in these ways -/

section

variable {onLink : Location → List String → Except IoError Place}

/-- Whether what `onLink` does behind a link is a walk, or the refusal of one. -/
def Follows (h : Host) (ending : Ending) (onLink : Location → List String → Except IoError Place) :
    Prop :=
  ∀ start steps, onLink start steps = .error (.os Errno.tooManyLinks) ∨
    Walks h ending start steps (onLink start steps)

/-- A step to a child, which is where names, links and what is missing matter. -/
theorem walks_child (hfollows : Follows h ending onLink) {here : Location} {step : String}
    {rest : List String} (hdir : h.find? here = some .dir) (hstep : IsChildStep step)
    (ih : ∀ here, Walks h ending here rest (h.walkFrom ending onLink here rest)) :
    Walks h ending here (step :: rest) (h.walkFrom ending onLink here (step :: rest)) := by
  have hstays : ¬ (decide (step = ".") || decide (step = "")) = true := by
    simp [hstep.ne_dot, hstep.ne_empty]
  simp only [walkFrom, hdir, if_neg hstays, if_neg hstep.ne_dots]
  split
  · next hslash =>
    obtain ⟨hending, hrest⟩ := Bool.and_eq_true_iff.mp hslash
    obtain rfl := of_decide_eq_true hrest
    exact .slash hdir (of_decide_eq_true hending)
  · split
    · next hlong => exact .long hdir hlong
    · next hlong =>
      have hshort : Name.size step ≤ nameLimit := Nat.le_of_not_lt hlong
      split
      · next hnone =>
        split
        · next hrest =>
          subst hrest
          exact .missing hdir hstep hshort hnone
        · next hrest => exact .lost hdir hrest hshort hnone
      · next target hlink =>
        split
        · next hkept =>
          obtain ⟨hrest, hending⟩ := Bool.and_eq_true_iff.mp hkept
          obtain rfl := of_decide_eq_true hrest
          exact .kept hdir hstep hlink (of_decide_eq_true hending)
        · next hkept =>
          have hgoes : rest ≠ [] ∨ ending ≠ .kept := by
            rw [← not_and_or]
            rintro ⟨hrest, hending⟩
            exact hkept (by simp [hrest, hending])
          rcases hfollows (linkSteps here target).1 ((linkSteps here target).2 ++ rest) with hworn | hwalks
          · rw [hworn]
            exact .worn hlink
          · exact .follow hdir hlink hgoes hwalks
      · next node hplain hnode =>
        exact .child hdir hstep hshort hnode (fun target heq => hplain target heq) (ih _)

/-- Walking on ends as `Walks` says if it does behind every link. -/
theorem walks_walkFrom (hfollows : Follows h ending onLink) (here : Location) (steps : List String) :
    Walks h ending here steps (h.walkFrom ending onLink here steps) := by
  induction steps generalizing here with
  | nil => exact .done here
  | cons step rest ih =>
    by_cases hdir : h.find? here = some .dir
    · by_cases hstays : step = "." ∨ step = ""
      · have hwalk : h.walkFrom ending onLink here (step :: rest) = h.walkFrom ending onLink here rest := by
          simp only [walkFrom, hdir, if_pos (show (decide (step = ".") || decide (step = "")) = true by
            simpa using hstays)]
        rw [hwalk]
        exact .stay hdir hstays (ih here)
      · obtain ⟨hdot, hempty⟩ := not_or.mp hstays
        by_cases hup : step = ".."
        · subst hup
          have hwalk : h.walkFrom ending onLink here (".." :: rest)
              = h.walkFrom ending onLink here.dropLast rest := by
            simp [walkFrom, hdir]
          rw [hwalk]
          exact .up hdir (ih _)
        · exact walks_child hfollows hdir ⟨hdot, hempty, hup⟩ ih
    · have hwalk : h.walkFrom ending onLink here (step :: rest) = .error (.os Errno.notADirectory) := by
        unfold walkFrom
        split
        · next heq => exact absurd heq hdir
        · rfl
      rw [hwalk]
      exact .blocked hdir

end

/-- A walk ends as `Walks` says, however many links it may follow. -/
theorem walks_walk (links : Nat) (here : Location) (steps : List String) :
    Walks h ending here steps (h.walk ending links here steps) := by
  induction links generalizing here steps with
  | zero => exact walks_walkFrom (fun _ _ => .inl rfl) here steps
  | succ links ih => exact walks_walkFrom (fun _ _ => .inr (ih _ _)) here steps

/-! ## What a walk finds -/

/-- A walk says of the place that it reaches what is there. -/
theorem Walks.node_eq {here : Location} {steps : List String} {p : Location} {node : Option HostNode}
    (hw : Walks h ending here steps (.ok (p, node))) : node = h.find? p := by
  generalize hr : Except.ok (p, node) = r at hw
  induction hw with
  | done => cases hr; rfl
  | stay _ _ _ ih => exact ih hr
  | up _ _ ih => exact ih hr
  | missing _ _ _ hnone => cases hr; exact hnone.symm
  | kept _ _ hlink => cases hr; exact hlink.symm
  | follow _ _ _ _ ih => exact ih hr
  | child _ _ _ _ _ _ ih => exact ih hr
  | _ => cases hr

/-- The errors with which a walk is given up, a slash behind a name being none of them unless what is
named may have to be created. -/
inductive WalkError : IoError → Prop where
  | noEntry : WalkError (.os Errno.noEntry)
  | notADirectory : WalkError (.os Errno.notADirectory)
  | nameTooLong : WalkError (.os Errno.nameTooLong)
  | tooManyLinks : WalkError (.os Errno.tooManyLinks)

theorem Walks.error {here : Location} {steps : List String} {e : IoError}
    (hw : Walks h ending here steps (.error e)) (hending : ending ≠ .created) : WalkError e := by
  generalize hr : Except.error e = r at hw
  induction hw with
  | blocked => cases hr; exact .notADirectory
  | slash _ hcreated => exact absurd hcreated hending
  | long => cases hr; exact .nameTooLong
  | lost => cases hr; exact .noEntry
  | worn => cases hr; exact .tooManyLinks
  | stay _ _ _ ih => exact ih hr
  | up _ _ ih => exact ih hr
  | follow _ _ _ _ ih => exact ih hr
  | child _ _ _ _ _ _ ih => exact ih hr
  | _ => cases hr

/-! ## Where a walk may get to -/

/-- The location to which a step leads. -/
def advance (here : Location) (step : String) : Location :=
  if step = "." ∨ step = "" then here else if step = ".." then here.dropLast else here ++ [step]

theorem advance_child {here : Location} {step : String} (hstep : IsChildStep step) :
    advance here step = here ++ [step] := by
  rw [advance, if_neg (not_or.mpr ⟨hstep.ne_dot, hstep.ne_empty⟩), if_neg hstep.ne_dots]

/-- Whether steps may lead from one location to another: each is taken as it is, or, if it names a
link, the steps of the link come in its place. -/
inductive Leads (h : Host) : Location → List String → Location → Prop where
  | done (here : Location) : Leads h here [] here
  | step {here : Location} {step : String} {rest : List String} {p : Location}
      (hrest : Leads h (advance here step) rest p) : Leads h here (step :: rest) p
  | follow {here : Location} {step : String} {target : Path} {rest : List String} {p : Location}
      (hlink : h.find? (here ++ [step]) = some (.link target))
      (hrest : Leads h (linkSteps here target).1 ((linkSteps here target).2 ++ rest) p) :
      Leads h here (step :: rest) p

/-- A walk gets to a place to which its steps may lead. -/
theorem Walks.leads {here : Location} {steps : List String} {p : Location} {node : Option HostNode}
    (hw : Walks h ending here steps (.ok (p, node))) : Leads h here steps p := by
  generalize hr : Except.ok (p, node) = r at hw
  induction hw with
  | done => cases hr; exact .done _
  | stay _ hstep _ ih => exact .step (by rw [advance, if_pos hstep]; exact ih hr)
  | up _ _ ih => exact .step (ih hr)
  | missing _ hstep => cases hr; exact .step (by rw [advance_child hstep]; exact .done _)
  | kept _ hstep => cases hr; exact .step (by rw [advance_child hstep]; exact .done _)
  | follow _ hlink _ _ ih => exact .follow hlink (ih hr)
  | child _ hstep _ _ _ _ ih => exact .step (by rw [advance_child hstep]; exact ih hr)
  | _ => cases hr

namespace Leads

/-- Fewer links lead to fewer places. -/
theorem mono {here : Location} {steps : List String} {p : Location}
    (hlinks : ∀ l target, k.find? l = some (.link target) → h.find? l = some (.link target))
    (hl : Leads k here steps p) : Leads h here steps p := by
  induction hl with
  | done => exact .done _
  | step _ ih => exact .step ih
  | follow hlink _ ih => exact .follow (hlinks _ _ hlink) ih

/-- Steps to children lead to the location that they name. -/
theorem child_steps {rest : List String} (hrest : ∀ step ∈ rest, IsChildStep step) (here : Location) :
    Leads h here rest (here ++ rest) := by
  induction rest generalizing here with
  | nil => rw [List.append_nil]; exact .done here
  | cons step rest ih =>
    rw [List.append_cons]
    refine .step ?_
    rw [advance_child (hrest step List.mem_cons_self)]
    exact ih (fun s hs => hrest s (List.mem_cons_of_mem _ hs)) _

/-- What lies below a location is led to by going on. -/
theorem append {here : Location} {steps : List String} {p : Location} (hl : Leads h here steps p)
    {rest : List String} (hrest : ∀ step ∈ rest, IsChildStep step) :
    Leads h here (steps ++ rest) (p ++ rest) := by
  induction hl with
  | done here => exact child_steps hrest here
  | step _ ih => exact .step ih
  | follow hlink _ ih =>
    refine .follow hlink ?_
    rw [List.append_assoc] at ih
    exact ih

/-- Where no link is on the way, steps to children lead nowhere but to the location that they name. -/
theorem eq_append {here : Location} {steps : List String} {p : Location} (hl : Leads h here steps p)
    (hsteps : ∀ step ∈ steps, IsChildStep step)
    (hlinks : ∀ l target, l <+: here ++ steps → h.find? l ≠ some (.link target)) :
    p = here ++ steps := by
  induction hl with
  | done here => rw [List.append_nil]
  | step _ ih =>
    rw [advance_child (hsteps _ List.mem_cons_self)] at ih
    rw [List.append_cons]
    refine ih (fun s hs => hsteps s (List.mem_cons_of_mem _ hs)) fun l target hbelow => ?_
    exact hlinks l target (by rwa [List.append_cons])
  | follow hlink _ _ =>
    exact absurd hlink (hlinks _ _ ((List.prefix_append_right_inj _).mpr ⟨_, rfl⟩))

end Leads

/-! ## Links at the end -/

/-- Walking on with and without following a link at the end comes to the same, unless there is a link
at the end. -/
theorem walkFrom_followed {onKept onFollowed : Location → List String → Except IoError Place}
    (hlinks : ∀ start steps, (∃ p target, onKept start steps = .ok (p, some (.link target))) ∨
      onFollowed start steps = onKept start steps) (here : Location) (steps : List String) :
    (∃ p target, h.walkFrom .kept onKept here steps = .ok (p, some (.link target))) ∨
      h.walkFrom .followed onFollowed here steps = h.walkFrom .kept onKept here steps := by
  induction steps generalizing here with
  | nil => exact .inr rfl
  | cons step rest ih =>
    unfold walkFrom
    split
    · split
      · exact ih here
      · split
        · exact ih _
        · simp only [reduceCtorEq, decide_false, Bool.false_and, Bool.false_eq_true, ↓reduceIte,
            Bool.and_false, decide_true, Bool.and_true]
          split
          · exact .inr rfl
          · split
            · exact .inr rfl
            · split
              · exact .inl ⟨_, _, rfl⟩
              · exact hlinks _ _
            · exact ih _
    · exact .inr rfl

theorem walk_followed (links : Nat) (here : Location) (steps : List String) :
    (∃ p target, h.walk .kept links here steps = .ok (p, some (.link target))) ∨
      h.walk .followed links here steps = h.walk .kept links here steps := by
  induction links generalizing here steps with
  | zero => exact walkFrom_followed (fun _ _ => .inr rfl) here steps
  | succ links ih => exact walkFrom_followed ih here steps

end FileProvider.Host
