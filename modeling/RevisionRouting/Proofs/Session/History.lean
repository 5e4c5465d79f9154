import Mathlib.Algebra.GroupWithZero.Nat
import RevisionRouting.Report.Watchers
import RevisionRouting.Session

/-!
# What a session leaves behind

A session is steps that are taken one after the other, on one hook with a clock that is moved by
hand and a memory that watches. What a step answers and what it adds to the memory depends on the
step and on the time at which it is taken (`Moment`), and on nothing else that came before. The
time is the one that the clock was moved to last (`clockAfter`).

`WatchedSession.step_remember` says this of one step. By induction the answers and the memory
of a session are those of its moments, put one behind the other (`WatchedSession.run_remember`).
All else follows from that: the memory only grows, its decisions are the routed ones in
order, and what is kept under one mark is what the steps with that mark add
(`WatchedSession.answers_and_memory_of_moments`).
-/

namespace RevisionRouting

/-! ### Time in a session -/

/-- Where a step moves the clock to. -/
def Step.movesTo? : Step → Option Time.Instant
  | .moveClock now => some now
  | _ => none

/-- What the clock shows after some steps: where it was moved to last. -/
def clockAfter (now : Time.Instant) (steps : List Step) : Time.Instant :=
  (steps.filterMap Step.movesTo?).getLast?.getD now

/-- A step with the time at which it is taken. -/
structure Moment where
  now : Time.Instant
  step : Step

/-- The moments of a session whose clock shows `now` at the beginning. -/
def moments (now : Time.Instant) : List Step → List Moment
  | [] => []
  | step :: steps => ⟨now, step⟩ :: moments (step.movesTo?.getD now) steps

theorem clockAfter_cons (now : Time.Instant) (step : Step) (steps : List Step) :
    clockAfter now (step :: steps) = clockAfter (step.movesTo?.getD now) steps := by
  unfold clockAfter
  cases hmove : step.movesTo? with
  | none => rw [List.filterMap_cons_none hmove, Option.getD_none]
  | some t =>
    -- a later move counts before this one, and this one before the beginning
    rw [List.filterMap_cons_some hmove, List.getLast?_cons, Option.getD_some, Option.getD_some]

theorem moments_append (now : Time.Instant) (before after : List Step) :
    moments now (before ++ after) = moments now before ++ moments (clockAfter now before) after := by
  -- the clock is moved along, so the induction is for every time it may show
  induction before generalizing now with
  | nil => rfl
  | cons step before ih =>
    rw [List.cons_append, moments, moments, ih, clockAfter_cons, List.cons_append]

/-- Every step has its moment. -/
theorem map_step_moments (now : Time.Instant) (steps : List Step) :
    (moments now steps).map Moment.step = steps := by
  induction steps generalizing now with
  | nil => rfl
  | cons step steps ih => rw [moments, List.map_cons, ih]

theorem length_moments (now : Time.Instant) (steps : List Step) :
    (moments now steps).length = steps.length := by
  rw [← List.length_map Moment.step, map_step_moments]

theorem step_mem_of_mem_moments {now : Time.Instant} {steps : List Step} {m : Moment}
    (h : m ∈ moments now steps) : m.step ∈ steps := by
  rw [← map_step_moments now steps]
  exact List.mem_map_of_mem h

/-! ### What a moment answers and adds -/

/-- The mark under which a step is observed. -/
def Step.mark? : Step → Option Invocation
  | .revise id _ => some id
  | .tell o => some o.id
  | _ => none

namespace Policy

variable (p : Policy)

/-- The answer to a step: the decision on the revision, if it routes one. -/
def answerAt (m : Moment) : Option Decision :=
  match m.step with
  | .revise _ r => some (p.evaluate m.now r)
  | _ => none

/-- What a step adds to the memory. -/
def observedAt (m : Moment) : List Observation :=
  match m.step with
  | .revise id r => [.received id r, .routed id (p.evaluate m.now r)]
  | .tell o => [o]
  | _ => []

/-- The decision that a step adds to the memory, whether it was made there or told. -/
def decidedAt (m : Moment) : Option Decision :=
  -- a decision that was told counts as well as one that was made
  match m.step with
  | .revise _ r => some (p.evaluate m.now r)
  | .tell o => o.decision?
  | _ => none

theorem decisions_observedAt (m : Moment) :
    decisions (p.observedAt m) = (p.decidedAt m).toList := by
  obtain ⟨now, step⟩ := m
  cases step with
  | tell o => cases o <;> rfl
  | _ => rfl

/-- All that a step adds stands under its mark. -/
theorem filter_observedAt (id : Invocation) (m : Moment) :
    (p.observedAt m).filter (fun o => o.id = id) =
      if m.step.mark? = some id then p.observedAt m else [] := by
  obtain ⟨now, step⟩ := m
  -- moves and rejections add nothing, so there is nothing to keep
  cases step with
  | moveClock t => exact (ite_self []).symm
  | reject reason => exact (ite_self []).symm
  | revise mark r =>
    by_cases h : mark = id <;> simp [observedAt, Observation.id, Step.mark?, h]
  | tell o =>
    by_cases h : o.id = id <;> simp [observedAt, Step.mark?, h]

end Policy

/-- The number of observations that a step adds. -/
def Step.adds : Step → Nat
  | .revise _ _ => 2
  | .tell _ => 1
  | _ => 0

theorem length_flatMap_moments (p : Policy) (now : Time.Instant) (steps : List Step) :
    ((moments now steps).flatMap p.observedAt).length = (steps.map Step.adds).sum := by
  induction steps generalizing now with
  | nil => rfl
  | cons step steps ih =>
    have hstep : (p.observedAt ⟨now, step⟩).length = step.adds := by cases step <;> rfl
    rw [moments, List.flatMap_cons, List.length_append, ih, hstep, List.map_cons, List.sum_cons]

/-! ### Sessions with a memory -/

namespace WatchedSession

variable (p : Policy) (now : Time.Instant)

/-- **A step** answers and adds what its moment does, and moves the clock if it is a move. -/
theorem step_remember (memory : List Observation) (step : Step) :
    (⟨p, now, memory⟩ : WatchedSession (List Observation)).step remember step =
      (p.answerAt ⟨now, step⟩,
        ⟨p, step.movesTo?.getD now, memory ++ p.observedAt ⟨now, step⟩⟩) := by
  -- only a revision adds two observations, hence the case of its own
  cases step with
  | moveClock t =>
    have hadd : p.observedAt ⟨now, .moveClock t⟩ = [] := rfl
    rw [hadd, List.append_nil]
    rfl
  | reject reason =>
    have hadd : p.observedAt ⟨now, .reject reason⟩ = [] := rfl
    rw [hadd, List.append_nil]
    rfl
  | tell o => rfl
  | revise id r =>
    -- the memory is told twice, once before the clock is read and once after
    have hadd : memory ++ p.observedAt ⟨now, .revise id r⟩ =
        (memory ++ [.received id r]) ++ [.routed id (p.evaluate now r)] :=
      (List.append_assoc memory [_] [_]).symm
    rw [hadd]
    rfl

/-- **A session** answers and adds what its moments do, one after the other. -/
theorem run_remember (memory : List Observation) (steps : List Step) :
    (⟨p, now, memory⟩ : WatchedSession (List Observation)).run remember steps =
      ((moments now steps).map p.answerAt,
        ⟨p, clockAfter now steps, memory ++ (moments now steps).flatMap p.observedAt⟩) := by
  -- the memory and the clock of the beginning are arbitrary, so the step before may have left them
  induction steps generalizing now memory with
  | nil =>
    rw [moments, List.flatMap_nil, List.append_nil]
    rfl
  | cons step steps ih =>
    rw [run, step_remember]
    dsimp only
    rw [ih, moments, List.map_cons, List.flatMap_cons, clockAfter_cons, List.append_assoc]

/-- The memory of a session that begins with none. -/
def memoryOf (steps : List Step) : List Observation :=
  ((⟨p, now, []⟩ : WatchedSession (List Observation)).run remember steps).2.watchers

theorem memoryOf_eq (steps : List Step) :
    memoryOf p now steps = (moments now steps).flatMap p.observedAt := by
  rw [memoryOf, run_remember, List.nil_append]

/-- What is remembered of some steps stands before what later steps add. -/
theorem memoryOf_append (before after : List Step) : memoryOf p now (before ++ after) =
    memoryOf p now before ++ (moments (clockAfter now before) after).flatMap p.observedAt := by
  rw [memoryOf_eq, memoryOf_eq, moments_append, List.flatMap_append]

theorem decisions_memoryOf (steps : List Step) :
    decisions (memoryOf p now steps) = (moments now steps).filterMap p.decidedAt := by
  rw [memoryOf_eq]
  -- the steps are forgotten here, and the induction is on their moments
  induction moments now steps with
  | nil => rfl
  | cons m ms ih =>
    rw [List.flatMap_cons, decisions, List.filterMap_append]
    change decisions (p.observedAt m) ++ decisions _ = _
    rw [ih, p.decisions_observedAt, List.filterMap_cons]
    cases p.decidedAt m <;> rfl

/-- What is kept under a mark is what the steps with that mark add. -/
theorem filter_memoryOf (id : Invocation) (steps : List Step) :
    (memoryOf p now steps).filter (fun o => o.id = id) =
      ((moments now steps).filter fun m => m.step.mark? = some id).flatMap p.observedAt := by
  rw [memoryOf_eq]
  -- the same induction, keeping one mark instead of the decisions
  induction moments now steps with
  | nil => rfl
  | cons m ms ih =>
    rw [List.flatMap_cons, List.filter_append, ih, p.filter_observedAt, List.filter_cons]
    by_cases h : m.step.mark? = some id <;> simp [h]

/-- The moments of the other steps have another mark, so under the mark of a step that has it to
itself only that step adds. -/
theorem filter_memoryOf_of_fresh {id : Invocation} {before after : List Step} {step : Step}
    (hmark : step.mark? = some id) (hfresh : ∀ other ∈ before ++ after, other.mark? ≠ some id) :
    (memoryOf p now (before ++ step :: after)).filter (fun o => o.id = id) =
      p.observedAt ⟨clockAfter now before, step⟩ := by
  -- no other step has the mark, so its moment adds nothing under it
  have hothers (t : Time.Instant) (others : List Step)
      (h : ∀ other ∈ others, other.mark? ≠ some id) :
      ((moments t others).filter fun m => m.step.mark? = some id) = [] :=
    List.filter_eq_nil_iff.2 fun m hm heq =>
      h m.step (step_mem_of_mem_moments hm) (of_decide_eq_true heq)
  rw [filter_memoryOf, moments_append, moments, List.filter_append, List.filter_cons,
    if_pos (decide_eq_true hmark),
    hothers _ before fun other h => hfresh other (List.mem_append_left after h),
    hothers _ after fun other h => hfresh other (List.mem_append_right before h),
    List.nil_append, List.flatMap_singleton]

/-- **The answers and the memory of a session are those of its moments,** one behind the other. So
the decisions in memory are the routed ones, in the order in which they were told; what is kept
under a mark is what the steps with that mark add, in their order; and the memory is as long as its
steps make it. Each step is taken at the time to which the clock was moved last, and what it adds
stands between what was remembered before and what is added later. If it routes a revision, the
answer is the decision on that revision at that time, and both are remembered side by side: under
the mark of the step there is nothing else, if no other step has that mark. -/
theorem answers_and_memory_of_moments (steps : List Step) :
    let answers := ((⟨p, now, []⟩ : WatchedSession (List Observation)).run remember steps).1
    let memory := memoryOf p now steps
    answers = (moments now steps).map p.answerAt ∧
    memory = (moments now steps).flatMap p.observedAt ∧
    decisions memory = (moments now steps).filterMap p.decidedAt ∧
    (∀ id : Invocation, memory.filter (fun o => o.id = id) =
      ((moments now steps).filter fun m => m.step.mark? = some id).flatMap p.observedAt) ∧
    memory.length = (steps.map Step.adds).sum ∧
    ∀ (before : List Step) (step : Step) (after : List Step), steps = before ++ step :: after →
      let m : Moment := ⟨clockAfter now before, step⟩
      (moments now steps)[before.length]? = some m ∧
      answers[before.length]? = some (p.answerAt m) ∧
      (∃ later : List Observation,
        memory = memoryOf p now before ++ p.observedAt m ++ later) ∧
      ∀ (id : Invocation) (r : Revision), step = .revise id r →
        let d := p.evaluate (clockAfter now before) r
        answers[before.length]? = some (some d) ∧
        (∃ later : List Observation,
          memory = memoryOf p now before ++ [.received id r, .routed id d] ++ later) ∧
        ((∀ other ∈ before ++ after, other.mark? ≠ some id) →
          memory.filter (fun o => o.id = id) = [.received id r, .routed id d]) := by
  intro answers memory
  -- both parts are those of `run_remember`, from an empty memory
  have hanswers : answers = (moments now steps).map p.answerAt :=
    congrArg Prod.fst (run_remember p now [] steps)
  have hmemory : memory = (moments now steps).flatMap p.observedAt := memoryOf_eq p now steps
  refine ⟨hanswers, hmemory, decisions_memoryOf p now steps,
    fun id => filter_memoryOf p now id steps, ?_, fun before step after hsteps => ?_⟩
  · rw [hmemory, length_flatMap_moments]
  · intro m
    -- the moments before the step are as many as the steps before it
    have hmoment : (moments now steps)[before.length]? = some m := by
      rw [hsteps, moments_append, ← length_moments now before, List.getElem?_append_right (Nat.le_refl _),
        Nat.sub_self]
      rfl
    have hanswer : answers[before.length]? = some (p.answerAt m) := by
      rw [hanswers, List.getElem?_map, hmoment, Option.map_some]
    -- what is remembered later is what the later moments add
    have hsplit : ∃ later, memory = memoryOf p now before ++ p.observedAt m ++ later := by
      refine ⟨(moments (step.movesTo?.getD m.now) after).flatMap p.observedAt, ?_⟩
      change memoryOf p now steps = _
      rw [hsteps, memoryOf_append, moments, List.flatMap_cons, List.append_assoc]
    refine ⟨hmoment, hanswer, hsplit, ?_⟩
    rintro id r rfl d
    -- the step is the only one with its mark
    refine ⟨hanswer, hsplit, fun hfresh => ?_⟩
    change (memoryOf p now steps).filter _ = _
    rw [hsteps, filter_memoryOf_of_fresh p now rfl hfresh]
    rfl

end WatchedSession

end RevisionRouting
