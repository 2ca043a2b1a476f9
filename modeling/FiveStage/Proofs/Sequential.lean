/-
  FiveStage.Proofs.Sequential
  ───────────────────────────
  **RUNS OF THE SEQUENTIAL MACHINE.**

  `Hart.run` unrolls a run from its first instruction.  A machine that is
  watched while it runs needs the other end: what one more instruction adds
  to a run of `n`.

      it is performed      history and hart grow by one step
      it cannot be         the run is over, and stays as it is

  So histories only grow, and a longer one tells no more of an instruction
  than the first that holds it.
-/
import FiveStage.Hart

namespace FiveStage.Hart

variable {program : ProgramMemory} {policy : AlignmentPolicy}

/-! ## §1. From the first instruction. -/

/-- A hart that runs performs the instruction at its PC. -/
theorem step_of_fetch {h : Hart} {inst : Word} (hh : h.halted = false)
    (hf : program.fetch h.pc = .ok inst) :
    h.step? program policy
      = some (⟨h.pc, inst, h.effectOf policy inst⟩, h.apply (h.effectOf policy inst)) := by
  unfold step?
  rw [if_neg (by rw [hh]; exact Bool.false_ne_true), hf]

/-- A hart that performs an instruction has not halted, and has fetched it. -/
theorem fetch_of_step {h h' : Hart} {s : Performed}
    (hs : h.step? program policy = some (s, h')) :
    h.halted = false ∧ program.fetch h.pc = .ok s.inst
      ∧ s.pc = h.pc ∧ s.effect = h.effectOf policy s.inst
      ∧ h' = h.apply (h.effectOf policy s.inst) := by
  cases hh : h.halted with
  | true =>
      unfold step? at hs
      rw [if_pos hh] at hs
      cases hs
  | false =>
      cases hf : program.fetch h.pc with
      | error fault =>
          unfold step? at hs
          rw [if_neg (by rw [hh]; exact Bool.false_ne_true), hf] at hs
          cases hs
      | ok inst =>
          rw [step_of_fetch hh hf] at hs
          cases hs
          exact ⟨rfl, rfl, rfl, rfl, rfl⟩

/-- A halted hart performs nothing. -/
theorem step_of_halted {h : Hart} (hh : h.halted = true) : h.step? program policy = none := by
  unfold step?
  exact if_pos hh

/-- A run of `n + 1` instructions is the first one, then a run of `n`. -/
theorem run_of_step {h h' : Hart} {s : Performed}
    (hs : h.step? program policy = some (s, h')) (n : Nat) :
    h.after program policy (n + 1) = h'.after program policy n
      ∧ h.history program policy (n + 1) = s :: h'.history program policy n := by
  unfold after history
  rw [run, hs]
  exact ⟨rfl, rfl⟩

/-- A hart that cannot step has an empty history. -/
theorem run_of_stuck {h : Hart} (hs : h.step? program policy = none) (n : Nat) :
    h.after program policy n = h ∧ h.history program policy n = [] := by
  cases n with
  | zero => exact ⟨rfl, rfl⟩
  | succ n =>
      unfold after history
      rw [run, hs]
      exact ⟨rfl, rfl⟩

/-! ## §2. One more instruction. -/

/-- One more instruction is performed where the first `n` have led. -/
theorem run_succ_of_step (n : Nat) :
    ∀ {h h' : Hart} {s : Performed},
      (h.after program policy n).step? program policy = some (s, h') →
      h.after program policy (n + 1) = h'
        ∧ h.history program policy (n + 1) = h.history program policy n ++ [s] := by
  -- a run unrolls at its first instruction, so the hart it starts from varies
  induction n with
  | zero =>
      intro h h' s hs
      exact run_of_step hs 0
  | succ n ih =>
      intro h h' s hs
      cases h0 : h.step? program policy with
      | none =>
          rw [(run_of_stuck h0 (n + 1)).1, h0] at hs
          cases hs
      | some r =>
          obtain ⟨s₀, h₀⟩ := r
          rw [(run_of_step h0 n).1] at hs
          obtain ⟨ha, hh⟩ := ih hs
          rw [(run_of_step h0 (n + 1)).1, (run_of_step h0 (n + 1)).2, (run_of_step h0 n).2, ha, hh]
          exact ⟨rfl, rfl⟩

/-- A run that cannot go on is over. -/
theorem run_succ_of_stuck (n : Nat) :
    ∀ {h : Hart}, (h.after program policy n).step? program policy = none →
      h.after program policy (n + 1) = h.after program policy n
        ∧ h.history program policy (n + 1) = h.history program policy n := by
  induction n with
  | zero =>
      intro h hs
      exact run_of_stuck hs 1
  | succ n ih =>
      intro h hs
      cases h0 : h.step? program policy with
      | none =>
          -- it was over before it began
          obtain ⟨ha, hh⟩ := run_of_stuck h0 (n + 1)
          obtain ⟨ha', hh'⟩ := run_of_stuck h0 (n + 2)
          exact ⟨ha'.trans ha.symm, hh'.trans hh.symm⟩
      | some r =>
          obtain ⟨s₀, h₀⟩ := r
          rw [(run_of_step h0 n).1] at hs
          obtain ⟨ha, hh⟩ := ih hs
          rw [(run_of_step h0 (n + 1)).1, (run_of_step h0 n).1, (run_of_step h0 (n + 1)).2,
            (run_of_step h0 n).2, ha, hh]
          exact ⟨rfl, rfl⟩

/-! ## §3. Histories only grow. -/

theorem history_succ_mono (h : Hart) (n : Nat) :
    h.history program policy n <+: h.history program policy (n + 1) := by
  cases hs : (h.after program policy n).step? program policy with
  | none => exact ⟨[], by rw [(run_succ_of_stuck n hs).2, List.append_nil]⟩
  | some r =>
      rw [(run_succ_of_step n hs).2]
      exact List.prefix_append _ _

/-- A longer history begins with the shorter one. -/
theorem history_mono (h : Hart) {m n : Nat} (hmn : m ≤ n) :
    h.history program policy m <+: h.history program policy n := by
  induction hmn with
  | refl => exact List.prefix_refl _
  | step _ ih => exact ih.trans (history_succ_mono h _)

theorem length_history_le (h : Hart) (n : Nat) : (h.history program policy n).length ≤ n := by
  induction n with
  | zero => exact Nat.le_refl 0
  | succ n ih =>
      cases hs : (h.after program policy n).step? program policy with
      | none =>
          rw [(run_succ_of_stuck n hs).2]
          omega
      | some r =>
          rw [(run_succ_of_step n hs).2, List.length_append, List.length_singleton]
          omega

/-- A history that is not full tells of a run that is over. -/
theorem stuck_of_length_lt {h : Hart} {n : Nat} (hn : (h.history program policy n).length < n) :
    (h.after program policy n).step? program policy = none := by
  induction n with
  | zero => exact absurd hn (Nat.not_lt_zero _)
  | succ n ih =>
      cases hs : (h.after program policy n).step? program policy with
      | none =>
          rw [(run_succ_of_stuck n hs).1]
          exact hs
      | some r =>
          rw [(run_succ_of_step n hs).2, List.length_append, List.length_singleton] at hn
          have hstuck := ih (by omega)
          rw [hs] at hstuck
          cases hstuck

/-- One instruction after the other is performed up to the end of a full
history. -/
theorem step_of_full {h : Hart} {n : Nat}
    (hn : (h.history program policy (n + 1)).length = n + 1) :
    (h.history program policy n).length = n
      ∧ ∃ s h', (h.after program policy n).step? program policy = some (s, h') := by
  have hle : (h.history program policy n).length ≤ n := length_history_le h n
  cases hs : (h.after program policy n).step? program policy with
  | none =>
      rw [(run_succ_of_stuck n hs).2] at hn
      omega
  | some r =>
      rw [(run_succ_of_step n hs).2, List.length_append, List.length_singleton] at hn
      exact ⟨by omega, r.1, r.2, rfl⟩

/-- The instruction number `n` of a run is the one performed after `n`. -/
theorem getElem?_history {h : Hart} {n : Nat} {s : Performed} :
    (h.history program policy (n + 1))[n]? = some s
      ↔ (h.history program policy n).length = n
        ∧ ∃ h', (h.after program policy n).step? program policy = some (s, h') := by
  constructor
  · intro hs
    -- there is a number `n`, so the history is full
    have hlt : n < (h.history program policy (n + 1)).length :=
      (List.getElem?_eq_some_iff.mp hs).1
    have hle : (h.history program policy (n + 1)).length ≤ n + 1 := length_history_le h (n + 1)
    have hlen : (h.history program policy (n + 1)).length = n + 1 := by omega
    obtain ⟨hfull, s', h', hstep⟩ := step_of_full hlen
    rw [(run_succ_of_step n hstep).2, List.getElem?_append_right (by omega), hfull,
      Nat.sub_self] at hs
    cases hs
    exact ⟨hfull, h', hstep⟩
  · rintro ⟨hfull, h', hstep⟩
    rw [(run_succ_of_step n hstep).2, List.getElem?_append_right (by omega), hfull, Nat.sub_self]
    rfl

/-- A full history is full up to any of its instructions. -/
theorem full_of_le {h : Hart} {m n : Nat} (hmn : m ≤ n)
    (hn : (h.history program policy n).length = n) :
    (h.history program policy m).length = m := by
  induction hmn with
  | refl => exact hn
  | step _ ih => exact ih (step_of_full hn).1

/-- Every history is a full one. -/
theorem exists_full (program : ProgramMemory) (policy : AlignmentPolicy) (h : Hart) (n : Nat) :
    ∃ m, m ≤ n ∧ (h.history program policy m).length = m
      ∧ h.history program policy m = h.history program policy n
      ∧ h.after program policy m = h.after program policy n := by
  induction n with
  | zero => exact ⟨0, Nat.le_refl 0, rfl, rfl, rfl⟩
  | succ n ih =>
      obtain ⟨m, hm, hfull, hhistory, hafter⟩ := ih
      cases hs : (h.after program policy n).step? program policy with
      | none =>
          obtain ⟨ha, hh⟩ := run_succ_of_stuck n hs
          exact ⟨m, Nat.le_succ_of_le hm, hfull, hhistory.trans hh.symm, hafter.trans ha.symm⟩
      | some r =>
          -- the first `n` were performed, or the next one could not be
          have hn : (h.history program policy n).length = n := by
            rcases Nat.lt_or_ge (h.history program policy n).length n with hlt | hge
            · rw [stuck_of_length_lt hlt] at hs
              cases hs
            · exact Nat.le_antisymm (length_history_le h n) hge
          refine ⟨n + 1, Nat.le_refl _, ?_, rfl, rfl⟩
          rw [(run_succ_of_step n hs).2, List.length_append, hn]
          rfl

/-- What is seen first of a full history is a history itself. -/
theorem history_of_prefix {α : Type} {h : Hart} {n : Nat} {f : Performed → α} {l : List α}
    (hn : (h.history program policy n).length = n)
    (hl : l <+: (h.history program policy n).map f) :
    l.length ≤ n ∧ l = (h.history program policy l.length).map f := by
  have hle : l.length ≤ n := by
    have hlen := hl.length_le
    rw [List.length_map, hn] at hlen
    exact hlen
  refine ⟨hle, ?_⟩
  have hfull := full_of_le hle hn
  -- two beginnings of one list that are equally long
  have hpre : (h.history program policy l.length).map f <+: (h.history program policy n).map f :=
    (history_mono h hle).map f
  have hlen : l.length = ((h.history program policy l.length).map f).length := by
    rw [List.length_map, hfull]
  exact (List.prefix_of_prefix_length_le hl hpre (Nat.le_of_eq hlen)).eq_of_length hlen

end FiveStage.Hart
