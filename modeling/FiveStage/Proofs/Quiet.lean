/-
  FiveStage.Proofs.Quiet
  ──────────────────────
  **A CORE LEFT ALONE RUNS THE PROGRAM.**

  While all lines are low and no handler is active, the frontier of a
  coherent core follows the sequential machine: `Tracks p h k c` says that it
  stands where the hart `h` is after `k` instructions.  A cycle performs the
  next one or none.

      seen_quiet       what has retired and what will, in order
      arrives          `distance` cycles from now ID/EX holds the next
                       instruction, if there is one
      Tracks.drains    if there is none, the pipeline is empty in two cycles
-/
import FiveStage.Proofs.Retiring

namespace FiveStage.Core

variable {p : Platform} {c c' : Core} {h : Hart} {k : Nat}

/-! ## §1. The frontier keeps pace. -/

/-- The frontier stands where this hart is after `k` instructions, and there
is no handler to return from. -/
structure Tracks (p : Platform) (h : Hart) (k : Nat) (c : Core) : Prop where
  /-- The latches are filled as the program demands. -/
  coherent : Coherent p c
  /-- No handler is active. -/
  idle : c.traps.active = none
  /-- Where the frontier is. -/
  frontier : c.frontier p = h.after p.program p.misaligned k
  /-- All `k` were performed. -/
  full : (h.history p.program p.misaligned k).length = k

/-- Every core with no handler active tracks its own frontier. -/
theorem Coherent.tracks (hc : Coherent p c) (hi : c.traps.active = none) :
    Tracks p (c.frontier p) 0 c :=
  ⟨hc, hi, rfl, rfl⟩

/-- The instruction in ID/EX, performed by the frontier. -/
def issuing (p : Platform) (c : Core) : List Performed :=
  (c.latches.idEx.map fun e =>
    ⟨e.pc, e.inst, (c.frontier p).effectOf p.misaligned e.inst⟩).toList

theorem issuing_of_none (he : c.latches.idEx = none) : c.issuing p = [] := by
  unfold issuing
  rw [he]
  rfl

theorem issuing_of_some {e : IdEx} (he : c.latches.idEx = some e) :
    c.issuing p = [⟨e.pc, e.inst, (c.frontier p).effectOf p.misaligned e.inst⟩] := by
  unfold issuing
  rw [he]
  rfl

theorem isSome_of_issuing {s : Performed} (hs : c.issuing p = [s]) :
    c.latches.idEx.isSome = true := by
  cases he : c.latches.idEx with
  | none =>
      rw [issuing_of_none he] at hs
      cases hs
  | some e => rfl

/-- Without a handler to return from, a quiet cycle enters none. -/
theorem Advance.idle (ha : Advance p c c') (hi : c.traps.active = none) :
    c'.traps.active = none := by
  rw [ha.traps]
  split
  · unfold TrapUnit.leave
    rw [hi]
    exact hi
  · exact hi

/-- Nothing to execute: the frontier waits. -/
theorem Tracks.tick_of_none (ht : Tracks p h k c) (he : c.latches.idEx = none) :
    Tracks p h k (c.tick p {}) := by
  have ha := tick_ordinary p (ordinary_quiet c)
  refine ⟨ht.coherent.advance ha, ha.idle ht.idle, ?_, ht.full⟩
  rw [(ht.coherent.frontier_waits ha he).1, ht.frontier]

/-- What is in ID/EX is the next instruction of the hart. -/
theorem Tracks.tick_of_some (ht : Tracks p h k c) {e : IdEx} (he : c.latches.idEx = some e) :
    Tracks p h (k + 1) (c.tick p {})
      ∧ h.history p.program p.misaligned (k + 1)
          = h.history p.program p.misaligned k
            ++ [⟨e.pc, e.inst, (c.frontier p).effectOf p.misaligned e.inst⟩] := by
  have ha := tick_ordinary p (ordinary_quiet c)
  have hstep := ht.coherent.frontier_performs ha he fun _ => ht.idle
  have hnext := hstep
  rw [ht.frontier] at hnext
  obtain ⟨hafter, hhistory⟩ := Hart.run_succ_of_step k hnext
  rw [← ht.frontier] at hhistory
  refine ⟨⟨ht.coherent.advance ha, ha.idle ht.idle, hafter.symm, ?_⟩, hhistory⟩
  rw [hhistory, List.length_append, ht.full]
  rfl

/-- **One quiet cycle**: the hart performs what ID/EX holds. -/
theorem Tracks.tick (ht : Tracks p h k c) :
    Tracks p h (k + (c.issuing p).length) (c.tick p {})
      ∧ h.history p.program p.misaligned (k + (c.issuing p).length)
          = h.history p.program p.misaligned k ++ c.issuing p
      ∧ (c.tick p {}).following p = (c.issuing p).map Performed.visible := by
  have ha := tick_ordinary p (ordinary_quiet c)
  cases he : c.latches.idEx with
  | none =>
      rw [issuing_of_none he, List.append_nil]
      exact ⟨ht.tick_of_none he, rfl, ha.following_of_none he⟩
  | some e =>
      obtain ⟨ht', hhistory⟩ := ht.tick_of_some he
      rw [issuing_of_some he]
      exact ⟨ht', hhistory, ht.coherent.following_executed ha he⟩

/-- Number of instructions executed in `n` quiet cycles. -/
def issued (p : Platform) (c : Core) : Nat → Nat
  | 0 => 0
  | n + 1 => issued p c n + ((c.after p (quiet n)).issuing p).length

/-- **A quiet run** takes the frontier through the program. -/
theorem tracks_quiet (hc : Coherent p c) (hi : c.traps.active = none) (n : Nat) :
    Tracks p (c.frontier p) (c.issued p n) (c.after p (quiet n)) := by
  induction n with
  | zero => exact hc.tracks hi
  | succ n ih =>
      rw [after_quiet_succ]
      exact ih.tick.1

/-- **What a quiet run shows.**  What has retired and the two that are about
to are, after the two that were so at the beginning, the first instructions
that the frontier had before it. -/
theorem seen_quiet (hc : Coherent p c) (hi : c.traps.active = none) (n : Nat) :
    c.seen p (quiet n)
          ++ ((c.after p (quiet n)).leaving ++ (c.after p (quiet n)).following p)
      = (c.leaving ++ c.following p)
          ++ ((c.frontier p).history p.program p.misaligned (c.issued p n)).map
              Performed.visible := by
  induction n with
  | zero => exact (List.append_nil _).symm
  | succ n ih =>
      obtain ⟨-, hhistory, hfollowing⟩ := (tracks_quiet hc hi n).tick
      have hleaving := (tick_ordinary p (ordinary_quiet (c.after p (quiet n)))).leaving_eq
      rw [after_quiet_succ, hleaving, hfollowing, seen_quiet_succ, issued, hhistory,
        List.map_append, ← List.append_assoc (c.leaving ++ c.following p), ← ih]
      simp only [List.append_assoc]

/-- The two that are about to retire do so in two cycles. -/
theorem seen_two (p : Platform) (c : Core) :
    c.seen p (quiet 2) = c.leaving ++ c.following p := by
  have hleaving := (tick_ordinary p (ordinary_quiet c)).leaving_eq
  rw [seen_quiet_succ, seen_quiet_succ, ← hleaving]
  rfl

/-- What has left two cycles later was in flight or was issued meanwhile. -/
theorem seen_quiet_two (hc : Coherent p c) (hi : c.traps.active = none) (n : Nat) :
    c.seen p (quiet (n + 2))
      = (c.leaving ++ c.following p)
          ++ ((c.frontier p).history p.program p.misaligned (c.issued p n)).map
              Performed.visible := by
  rw [quiet_add, seen_append, seen_two, seen_quiet hc hi]

/-- An instruction retires three cycles after it was issued. -/
theorem retired_three (hc : Coherent p c) (hi : c.traps.active = none) (n : Nat) :
    ((c.after p (quiet (n + 3))).lastRetired.map Retirement.visible).toList
      = ((c.after p (quiet n)).issuing p).map Performed.visible := by
  have hfollowing := (tracks_quiet hc hi n).tick.2.2
  have hleaving := (tick_ordinary p (ordinary_quiet (c.after p (quiet (n + 1))))).leaving_eq
  rw [← after_quiet_succ] at hfollowing hleaving
  rw [after_quiet_succ p c (n + 2), lastRetired_tick p _ rfl, Option.map_map, ← hfollowing,
    ← hleaving]
  rfl

/-! ## §2. The next instruction arrives. -/

/-- Cycles until ID/EX can hold the instruction at the front. -/
def distance (c : Core) : Nat :=
  if c.latches.idEx.isSome then 0 else if c.latches.ifId.isSome then 1 else 2

theorem distance_eq_zero : c.distance = 0 ↔ c.latches.idEx.isSome = true := by
  unfold distance
  split
  · simp [*]
  · split <;> simp [*]

/-- A frontier that can go on has its next instruction coming. -/
theorem Coherent.distance_tick (hc : Coherent p c) (ha : Advance p c c')
    (he : c.latches.idEx = none)
    (hs : (c.frontier p).step? p.program p.misaligned ≠ none) :
    c'.distance + 1 = c.distance := by
  have ht := transfer_of_none he
  have hd : c.distance = if c.latches.ifId.isSome then 1 else 2 := by
    unfold distance
    rw [he]
    rfl
  cases ha.front with
  | redirect _ transfer | halt _ transfer => rw [ht] at transfer; cases transfer
  | stopped _ stop =>
      -- a halted frontier does not go on
      exact absurd (Hart.step_of_halted (hc.front.2.trans stop)) hs
  | stall _ _ waits =>
      rw [waits_of_bubble he] at waits
      cases waits
  | fetched inst _ _ _ _ ifId idEx =>
      rw [hd]
      unfold distance
      rw [ifId, idEx]
      cases c.latches.ifId <;> rfl
  | starved fault _ _ _ fetch ifId idEx =>
      rw [hd]
      unfold distance
      rw [ifId, idEx]
      cases hi : c.latches.ifId with
      | some f => rfl
      | none =>
          -- with the front half empty, the word that was refused is the frontier's next
          have hpc : (c.frontier p).pc = c.pc := hc.front.1.trans (frontPc_of_bubbles he hi)
          cases hstep : (c.frontier p).step? p.program p.misaligned with
          | none => exact absurd hstep hs
          | some r =>
              have hfetch := (Hart.fetch_of_step hstep).2.1
              rw [hpc, fetch] at hfetch
              cases hfetch

theorem issued_succ_of_none {n : Nat} (he : (c.after p (quiet n)).latches.idEx = none) :
    c.issued p (n + 1) = c.issued p n := by
  rw [issued, issuing_of_none he]
  rfl

theorem issued_succ_of_some {n : Nat}
    (he : (c.after p (quiet n)).latches.idEx.isSome = true) :
    c.issued p (n + 1) = c.issued p n + 1 := by
  obtain ⟨e, he⟩ := Option.isSome_iff_exists.mp he
  rw [issued, issuing_of_some he]
  rfl

theorem issued_mono (p : Platform) (c : Core) {m n : Nat} (hmn : m ≤ n) :
    c.issued p m ≤ c.issued p n := by
  induction hmn with
  | refl => exact Nat.le_refl _
  | step _ ih => exact Nat.le_trans ih (Nat.le_add_right _ _)

/-- **The next instruction arrives in ID/EX** `distance` cycles from now. -/
theorem arrives (hc : Coherent p c) (hi : c.traps.active = none) (d : Nat) :
    ∀ {n : Nat}, (c.after p (quiet n)).distance = d →
      ((c.frontier p).after p.program p.misaligned (c.issued p n)).step? p.program p.misaligned
        ≠ none →
      c.issued p (n + d) = c.issued p n
        ∧ (c.after p (quiet (n + d))).latches.idEx.isSome = true := by
  induction d with
  | zero =>
      intro n hd _
      exact ⟨rfl, distance_eq_zero.mp hd⟩
  | succ d ih =>
      intro n hd hs
      have ht := tracks_quiet hc hi n
      have he : (c.after p (quiet n)).latches.idEx = none := by
        cases he : (c.after p (quiet n)).latches.idEx with
        | none => rfl
        | some e =>
            have hzero := distance_eq_zero.mpr (Option.isSome_iff_exists.mpr ⟨e, he⟩)
            omega
      have hd' := ht.coherent.distance_tick (tick_ordinary p (ordinary_quiet _)) he
        (ht.frontier ▸ hs)
      rw [← after_quiet_succ] at hd'
      have hissued := issued_succ_of_none he
      rw [← hissued] at hs ⊢
      -- one cycle later, and one cycle less to go
      rw [Nat.add_comm d 1, ← Nat.add_assoc]
      exact ih (by omega) hs

/-- Every instruction of the program is executed sooner or later. -/
theorem reaches (hc : Coherent p c) (hi : c.traps.active = none)
    (hk : ((c.frontier p).history p.program p.misaligned k).length = k) :
    ∃ n, c.issued p n = k := by
  induction k with
  | zero => exact ⟨0, rfl⟩
  | succ k ih =>
      obtain ⟨hfull, s, h', hs⟩ := Hart.step_of_full hk
      obtain ⟨n, rfl⟩ := ih hfull
      obtain ⟨hissued, hsome⟩ := arrives hc hi _ rfl (by rw [hs]; simp)
      exact ⟨_, (issued_succ_of_some hsome).trans (by rw [hissued])⟩

theorem seen_mono (p : Platform) (c : Core) {m n : Nat} (hmn : m ≤ n) :
    c.seen p (quiet m) <+: c.seen p (quiet n) := by
  obtain ⟨d, rfl⟩ := Nat.exists_eq_add_of_le hmn
  rw [quiet_add, seen_append]
  exact List.prefix_append _ _

/-- Every history is seen after enough cycles. -/
theorem exists_seen (hc : Coherent p c) (hi : c.traps.active = none) (k : Nat) :
    ∃ n, c.seen p (quiet n)
      = (c.leaving ++ c.following p)
          ++ ((c.frontier p).history p.program p.misaligned k).map Performed.visible := by
  obtain ⟨m, -, hfull, hhistory, -⟩ := Hart.exists_full p.program p.misaligned
    (c.frontier p) k
  obtain ⟨n, hn⟩ := reaches hc hi hfull
  exact ⟨n + 2, by rw [seen_quiet_two hc hi, hn, hhistory]⟩

/-! ## §3. The pipeline drains. -/

/-- Where the frontier cannot go on, nothing is behind it. -/
theorem Coherent.bubbles_of_stuck (hc : Coherent p c)
    (hs : (c.frontier p).step? p.program p.misaligned = none) :
    c.latches.ifId = none ∧ c.latches.idEx = none := by
  -- an instruction found at the front could be performed
  have hfront : ∀ inst, c.halted = false → p.program.fetch c.frontPc ≠ .ok inst := by
    intro inst hrun hfetch
    rw [Hart.step_of_fetch (hc.front.2.trans hrun) (hc.front.1.symm ▸ hfetch)] at hs
    cases hs
  cases hh : c.halted with
  | true => exact hc.halted hh
  | false =>
      have he : c.latches.idEx = none := by
        cases he : c.latches.idEx with
        | none => rfl
        | some e =>
            exact absurd (frontPc_of_idEx he ▸ (hc.idEx e he).1) (hfront e.inst hh)
      refine ⟨?_, he⟩
      cases hi : c.latches.ifId with
      | none => rfl
      | some f =>
          exact absurd (frontPc_of_ifId he hi ▸ (hc.ifId f hi).1) (hfront f.inst hh)

/-- A frontier that cannot go on stays where it is. -/
theorem Tracks.stays (ht : Tracks p h k c)
    (hs : (h.after p.program p.misaligned k).step? p.program p.misaligned = none) (n : Nat) :
    Tracks p h k (c.after p (quiet n)) := by
  induction n with
  | zero => exact ht
  | succ n ih =>
      rw [after_quiet_succ]
      exact ih.tick_of_none (ih.coherent.bubbles_of_stuck (ih.frontier ▸ hs)).2

/-- **The pipeline is empty** two cycles after the frontier has come to a stop. -/
theorem Tracks.drains (ht : Tracks p h k c)
    (hs : (h.after p.program p.misaligned k).step? p.program p.misaligned = none) {n : Nat}
    (hn : 2 ≤ n) : (c.after p (quiet n)).latches = .empty := by
  have hstuck : ∀ m, ((c.after p (quiet m)).frontier p).step? p.program p.misaligned = none := by
    intro m
    rw [(ht.stays hs m).frontier, hs]
  have hbubbles : ∀ m, (c.after p (quiet m)).latches.ifId = none
      ∧ (c.after p (quiet m)).latches.idEx = none := by
    intro m
    exact (ht.stays hs m).coherent.bubbles_of_stuck (hstuck m)
  have hexMem : ∀ m, (c.after p (quiet (m + 1))).latches.exMem = none := by
    intro m
    rw [after_quiet_succ]
    exact (tick_ordinary p (ordinary_quiet _)).exMem_of_none (hbubbles m).2
  -- the last instruction is in EX/MEM now, in MEM/WB next, and then gone
  obtain ⟨m, rfl⟩ := Nat.exists_eq_add_of_le' hn
  have hmemWb : (c.after p (quiet (m + 2))).latches.memWb = none := by
    rw [after_quiet_succ, (tick_ordinary p (ordinary_quiet _)).memWb, hexMem m]
    rfl
  have h1 := hbubbles (m + 2)
  have h2 := hexMem (m + 1)
  generalize (c.after p (quiet (m + 2))).latches = l at *
  cases l
  simp_all [Latches.empty]

/-! ## §4. A core with nothing in flight. -/

/-- With empty latches the frontier is the hart that registers, memory and PC show. -/
theorem frontier_of_empty (p : Platform) (hl : c.latches = .empty) : c.frontier p = c.hart := by
  have hx := (bubbles_of_empty hl).2.2.1
  rw [frontier_of_bubble hx, committed, epc_of_bubble hx, frontPc, settled, hl, hart]
  show (⟨_, _, _, c.halted && true⟩ : Hart) = _
  rw [Bool.and_true]
  rfl

theorem pending_of_empty (p : Platform) (hl : c.latches = .empty) :
    c.leaving = [] ∧ c.following p = [] := by
  obtain ⟨-, -, hexMem, hmemWb⟩ := bubbles_of_empty hl
  exact ⟨leaving_of_bubble hmemWb, following_of_bubble hexMem⟩

end FiveStage.Core
