/-
  FiveStage.Proofs.Running
  ────────────────────────
  **RUNS END, SHOW EVERY CYCLE, AND CAN BE TAKEN UP AGAIN.**

  A run is a loop: as long as there is budget left and the core has not
  finished, it makes a cycle and shows it.  `Runs` is the loop in its own
  terms, with no count of cycles to come:

      sim.Runs seen last    from `sim` the loop makes the cycles `seen`, and
                            leaves `last`

  The loop ends because a cycle takes one from what is left of the budget,
  whatever happens in it.  All else is said of `Runs` first: how many cycles
  there are, that each starts from a core that has not finished, and that a
  run with a small budget is the beginning of a run with a larger one.
-/
import FiveStage.Core.Elapsed
import FiveStage.Simulator
import Mathlib.Data.List.Chain

namespace FiveStage.Simulator

variable {α : Type} {sim mid last : Simulator} {seen more : List Cycle}

/-! ## §1. Once round the loop. -/

/-- The loop goes round once more. -/
def GoesOn (sim : Simulator) : Prop :=
  sim.core.counters.cycles < sim.maxCycles ∧ sim.core.finished = false

/-- The simulator after one cycle. -/
def next (sim : Simulator) : Simulator :=
  sim.afterCycle sim.cycle

theorem next_maxCycles (sim : Simulator) : sim.next.maxCycles = sim.maxCycles := rfl

theorem cycles_next (sim : Simulator) :
    sim.next.core.counters.cycles = sim.core.counters.cycles + 1 :=
  Core.cycles_tick _ _ _

/-- A run that goes on observes its first cycle and is the run from there. -/
theorem runObserved_of_goesOn (h : sim.GoesOn) (observe : α → Cycle → α) (a : α) :
    sim.runObserved observe a = sim.next.runObserved observe (observe a sim.cycle) := by
  obtain ⟨hbudget, hrunning⟩ := h
  obtain ⟨n, hn⟩ : ∃ n, sim.maxCycles - sim.core.counters.cycles = n + 1 :=
    ⟨_, (Nat.succ_pred_eq_of_pos (Nat.sub_pos_of_lt hbudget)).symm⟩
  have hleft : sim.next.maxCycles - sim.next.core.counters.cycles = n := by
    rw [next_maxCycles, cycles_next]
    omega
  unfold runObserved
  rw [hn, hleft, runSteps, if_neg (by rw [hrunning]; exact Bool.false_ne_true)]
  rfl

/-- A run that does not go on has observed nothing. -/
theorem runObserved_of_not (h : ¬ sim.GoesOn) (observe : α → Cycle → α) (a : α) :
    sim.runObserved observe a = (sim, a) := by
  unfold runObserved
  cases hn : sim.maxCycles - sim.core.counters.cycles with
  | zero => rfl
  | succ n =>
      have hfinished : sim.core.finished = true := by
        cases hf : sim.core.finished with
        | true => rfl
        | false => exact absurd ⟨by omega, hf⟩ h
      rw [runSteps, if_pos hfinished]

/-! ## §2. The loop. -/

/-- From `sim` the loop makes the cycles `seen`, and leaves `last`. -/
inductive Runs : Simulator → List Cycle → Simulator → Prop where
  /-- It goes round no more. -/
  | done {sim : Simulator} (stops : ¬ sim.GoesOn) : Runs sim [] sim
  /-- It goes round once, and then on. -/
  | cycle {sim last : Simulator} {seen : List Cycle} (on : sim.GoesOn)
      (rest : Runs sim.next seen last) : Runs sim (sim.cycle :: seen) last

/-- **Every loop ends.** -/
theorem exists_runs (sim : Simulator) : ∃ seen last, sim.Runs seen last := by
  by_cases h : sim.GoesOn
  · obtain ⟨seen, last, hrest⟩ := exists_runs sim.next
    exact ⟨_, last, .cycle h hrest⟩
  · exact ⟨_, sim, .done h⟩
  termination_by sim.maxCycles - sim.core.counters.cycles
  decreasing_by
    have hbudget := h.1
    rw [next_maxCycles, cycles_next]
    omega

/-- An observed run is the loop, and its observer sees the cycles of the
loop. -/
theorem Runs.runObserved (h : sim.Runs seen last) (observe : α → Cycle → α) (a : α) :
    sim.runObserved observe a = (last, seen.foldl observe a) := by
  induction h generalizing a with
  | done stops => exact runObserved_of_not stops observe a
  | cycle on _ ih =>
      rw [runObserved_of_goesOn on, ih]
      rfl

/-- The loop ends where the relation says. -/
theorem Runs.run (h : sim.Runs seen last) : sim.run = last :=
  congrArg Prod.fst (h.runObserved _ _)

/-- The cores that a run shows, one after each cycle. -/
def observed (sim : Simulator) : List Core :=
  (sim.runObserved (fun cores c => cores ++ [c.core]) []).2

theorem Runs.observed (h : sim.Runs seen last) : sim.observed = seen.map (·.core) := by
  have hfold (before : List Core) :
      seen.foldl (fun cores c => cores ++ [c.core]) before = before ++ seen.map (·.core) := by
    clear h
    induction seen generalizing before with
    | nil => exact (List.append_nil before).symm
    | cons c seen ih =>
        rw [List.foldl_cons, ih, List.append_assoc]
        rfl
  exact (congrArg Prod.snd (h.runObserved _ _)).trans (hfold [])

/-! ## §3. What the loop passes through. -/

/-- The loop leaves the core that as many cycles under the same lines lead
to. -/
theorem Runs.last_eq (h : sim.Runs seen last) :
    last = { sim with
      core := sim.core.after sim.platform (List.replicate seen.length sim.lines) } := by
  induction h with
  | done => rfl
  | cycle _ _ ih => exact ih

/-- A run counts one cycle for each observation. -/
theorem Runs.cycles (h : sim.Runs seen last) :
    last.core.counters.cycles = sim.core.counters.cycles + seen.length := by
  rw [h.last_eq]
  exact (Core.cycles_after _ _ _).trans (by rw [List.length_replicate])

/-- The budget is not exceeded, unless it was from the start. -/
theorem Runs.cycles_le (h : sim.Runs seen last) :
    last.core.counters.cycles ≤ max sim.maxCycles sim.core.counters.cycles := by
  induction h with
  | done => exact Nat.le_max_right _ _
  | cycle on _ ih =>
      have hbudget := on.1
      rw [next_maxCycles, cycles_next] at ih
      omega

/-- The cycle counter of the cores that are shown goes up by one each. -/
theorem Runs.stamps (h : sim.Runs seen last) :
    seen.map (·.core.counters.cycles) = List.range' (sim.core.counters.cycles + 1) seen.length := by
  induction h with
  | done => rfl
  | @cycle sim _ _ _ _ ih =>
      rw [cycles_next] at ih
      rw [List.map_cons, ih, List.length_cons, List.range'_succ]
      exact congrArg (· :: _) (cycles_next sim)

/-- Every cycle starts from a core that has not finished. -/
theorem Runs.chain (h : sim.Runs seen last) :
    (sim.core :: seen.map (·.core)).IsChain fun c d =>
      c.finished = false ∧ d = c.tick sim.platform sim.lines := by
  induction h with
  | done => exact .singleton _
  | cycle on _ ih => exact .cons_cons ⟨on.2, rfl⟩ ih

theorem Runs.getLast (h : sim.Runs seen last) :
    (sim.core :: seen.map (·.core)).getLast (List.cons_ne_nil _ _) = last.core := by
  induction h with
  | done => rfl
  | cycle _ _ ih =>
      rw [List.map_cons, List.getLast_cons (List.cons_ne_nil _ _)]
      exact ih

/-- The outcome tells whether the core has finished. -/
theorem outcome_halted_iff (sim : Simulator) :
    sim.outcome = .halted sim.core.counters.cycles
      ↔ sim.core.halted = true ∧ sim.core.drained = true := by
  rw [← Bool.and_eq_true_iff]
  show _ ↔ sim.core.finished = true
  unfold outcome
  by_cases hfinished : sim.core.finished = true
  · rw [if_pos hfinished]
    exact iff_of_true rfl hfinished
  · rw [if_neg hfinished]
    exact iff_of_false Outcome.noConfusion hfinished

/-- A run that reports a halt has finished, in the cycle it reports. -/
theorem finished_of_outcome {n : Nat} (h : sim.outcome = .halted n) :
    sim.core.finished = true ∧ sim.core.counters.cycles = n := by
  unfold outcome at h
  split at h
  · rename_i hfinished
    exact ⟨hfinished, Outcome.halted.inj h⟩
  · cases h

/-! ## §4. Budgets. -/

/-- The simulator with another budget. -/
def withBudget (m : Nat) (sim : Simulator) : Simulator :=
  { sim with maxCycles := m }

/-- A larger budget stops no run that goes on. -/
theorem GoesOn.withBudget {m : Nat} (h : sim.GoesOn) (hm : sim.maxCycles ≤ m) :
    (sim.withBudget m).GoesOn :=
  ⟨Nat.lt_of_lt_of_le h.1 hm, h.2⟩

/-- **A run is the beginning of the one with a larger budget**, wherever the
smaller budget ends it. -/
theorem Runs.resume {m : Nat} (h : sim.Runs seen mid) (hm : sim.maxCycles ≤ m)
    (hmore : (mid.withBudget m).Runs more last) :
    (sim.withBudget m).Runs (seen ++ more) last := by
  induction h with
  | done => exact hmore
  | cycle on _ ih => exact .cycle (on.withBudget hm) (ih hm hmore)

/-- A run that has finished is the same with any larger budget. -/
theorem Runs.enlarge {m : Nat} (h : sim.Runs seen last) (hm : sim.maxCycles ≤ m)
    (hfinished : last.core.finished = true) :
    (sim.withBudget m).Runs seen (last.withBudget m) := by
  have hstops : ¬(last.withBudget m).GoesOn := by
    intro hon
    have hrunning : last.core.finished = false := hon.2
    rw [hfinished] at hrunning
    cases hrunning
  have hall := h.resume hm (.done hstops)
  rwa [List.append_nil] at hall

/-- Two runs, the second with a larger budget and from where the first ended,
are one run with that. -/
theorem runObserved_resume (sim : Simulator) {m : Nat} (hm : sim.maxCycles ≤ m)
    (observe : α → Cycle → α) (a : α) :
    ((sim.runObserved observe a).1.withBudget m).runObserved observe (sim.runObserved observe a).2
      = (sim.withBudget m).runObserved observe a := by
  obtain ⟨seen, mid, hfirst⟩ := exists_runs sim
  obtain ⟨more, last, hsecond⟩ := exists_runs (mid.withBudget m)
  rw [hfirst.runObserved, hsecond.runObserved, (hfirst.resume hm hsecond).runObserved,
    List.foldl_append]

/-- Resumed under a larger budget, a run observes what it would have observed
under it from the start. -/
theorem observed_resume (sim : Simulator) {m : Nat} (hm : sim.maxCycles ≤ m) :
    sim.observed ++ (sim.run.withBudget m).observed = (sim.withBudget m).observed := by
  obtain ⟨seen, mid, hfirst⟩ := exists_runs sim
  obtain ⟨more, last, hsecond⟩ := exists_runs (mid.withBudget m)
  rw [hfirst.run, hfirst.observed, hsecond.observed, (hfirst.resume hm hsecond).observed,
    List.map_append]

/-! ## §5. Runs. -/

/-- **Runs end, show every cycle, and compose over budgets.**  From whatever
state a simulator is in, and with whatever budget:

  * the loop ends, and every observer sees its cycles, one for every cycle
    that the counter went up by, the counter going up by one each time;
  * the run ends halted just if the core is halted and drained, the budget is
    not exceeded, and no cycle starts from a core that has finished;
  * a run with a budget followed by one with a larger budget is the one run
    with that, to every observer;
  * once it ends halted, a larger budget changes nothing. -/
theorem runs_end_and_compose (sim : Simulator) :
    (∃ seen, sim.Runs seen sim.run
        ∧ sim.observed = seen.map (·.core)
        ∧ ∀ {α : Type} (observe : α → Cycle → α) (a : α),
            sim.runObserved observe a = (sim.run, seen.foldl observe a))
      ∧ sim.run.core.counters.cycles = sim.core.counters.cycles + sim.observed.length
      ∧ sim.observed.map (·.counters.cycles)
          = List.range' (sim.core.counters.cycles + 1) sim.observed.length
      ∧ (sim.run.outcome = .halted sim.run.core.counters.cycles
          ↔ sim.run.core.halted = true ∧ sim.run.core.drained = true)
      ∧ sim.run.core.counters.cycles ≤ max sim.maxCycles sim.core.counters.cycles
      ∧ ((sim.core :: sim.observed).IsChain fun c d =>
          c.finished = false ∧ d = c.tick sim.platform sim.lines)
      ∧ (sim.core :: sim.observed).getLast (List.cons_ne_nil _ _) = sim.run.core
      ∧ (∀ m₁ m₂, m₁ ≤ m₂ →
          (sim.withBudget m₁).observed ++ ((sim.withBudget m₁).run.withBudget m₂).observed
              = (sim.withBudget m₂).observed
            ∧ ∀ {α : Type} (observe : α → Cycle → α) (a : α),
              let first := (sim.withBudget m₁).runObserved observe a
              (first.1.withBudget m₂).runObserved observe first.2
                = (sim.withBudget m₂).runObserved observe a)
      ∧ ∀ m₁ m₂ n, m₁ ≤ m₂ → (sim.withBudget m₁).run.outcome = .halted n →
          ∀ {α : Type} (observe : α → Cycle → α) (a : α),
            let first := (sim.withBudget m₁).runObserved observe a
            (sim.withBudget m₂).runObserved observe a = (first.1.withBudget m₂, first.2) := by
  -- all of it is read off the one run that the loop is
  obtain ⟨seen, last, h⟩ := exists_runs sim
  have hlast : sim.run = last := h.run
  refine ⟨⟨seen, ?_⟩, ?_, ?_, outcome_halted_iff sim.run, ?_, ?_, ?_, ?_, ?_⟩
  · rw [hlast]
    exact ⟨h, h.observed, fun observe a => h.runObserved observe a⟩
  · rw [hlast, h.observed, List.length_map]
    exact h.cycles
  · rw [h.observed, List.map_map, List.length_map]
    exact h.stamps
  · rw [hlast]
    exact h.cycles_le
  · rw [h.observed]
    exact h.chain
  · simp only [hlast, h.observed]
    exact h.getLast
  · intro m₁ m₂ hm
    exact ⟨observed_resume (sim.withBudget m₁) hm,
      fun observe a => runObserved_resume (sim.withBudget m₁) hm observe a⟩
  · intro m₁ m₂ n hm hhalted α observe a
    obtain ⟨seen₁, last₁, h₁⟩ := exists_runs (sim.withBudget m₁)
    rw [h₁.run] at hhalted
    -- a core that has finished stops the loop under the larger budget too
    have h₂ : (sim.withBudget m₂).Runs seen₁ (last₁.withBudget m₂) :=
      h₁.enlarge hm (finished_of_outcome hhalted).1
    show (sim.withBudget m₂).runObserved observe a
      = (((sim.withBudget m₁).runObserved observe a).1.withBudget m₂, _)
    rw [h₁.runObserved, h₂.runObserved]

/-- A simulator of a program that halts at once. -/
def halting : Simulator :=
  let platform : Platform :=
    { program := .rom ⟨#[Encode.halt], 1⟩
      misaligned := .fault
      resetVector := 0
      interrupts := {}
      traceInstructions := false }
  { platform, core := .initial platform ⟨0, 8, {}⟩, maxCycles := 0 }

/-- A budget of three ends the run with the halt executed and still in the
pipeline. -/
theorem runs_end_and_compose_halting :
    (halting.withBudget 3).run.core.halted = true
      ∧ (halting.withBudget 3).run.outcome = .cycleLimit 3
      ∧ (halting.withBudget 3).observed ++ ((halting.withBudget 3).run.withBudget 9).observed
          = (halting.withBudget 9).observed
      ∧ (halting.withBudget 5).run.outcome = .halted 5
      ∧ (halting.withBudget 9).run = (halting.withBudget 5).run.withBudget 9 := by
  obtain ⟨-, -, -, -, -, -, -, hcompose, henlarge⟩ := runs_end_and_compose halting
  have hhalted : (halting.withBudget 5).run.outcome = .halted 5 := by decide +kernel
  refine ⟨by decide +kernel, by decide +kernel, (hcompose 3 9 (by decide)).1, hhalted, ?_⟩
  exact congrArg Prod.fst (henlarge 5 9 5 (by decide) hhalted _ ())

end FiveStage.Simulator
