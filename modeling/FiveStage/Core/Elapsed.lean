/-
  FiveStage.Core.Elapsed
  ──────────────────────
  **EVERY CYCLE COUNTS ONE.**

  The cycle counter is the clock of the core: records are stamped with it and
  a run is bounded by it.  No stage touches it, so each cycle, under reset or
  not, moves it by exactly one:

      (c.tick p inputs).counters.cycles = c.counters.cycles + 1
-/
import FiveStage.Core.Run

namespace FiveStage

/-- Retiring counts an instruction, not a cycle. -/
theorem Counters.cycles_retire (k : Counters) (cls : InstrClass) :
    (k.retire cls).cycles = k.cycles := by
  cases cls <;> rfl

namespace Core

/-! ## §1. The stages leave it alone. -/

theorem cycles_writeback (c : Core) : c.writeback.core.counters.cycles = c.counters.cycles := by
  unfold writeback
  split
  · rfl
  · exact Counters.cycles_retire _ _

theorem cycles_access (p : Platform) (c : Core) :
    (c.access p).core.counters.cycles = c.counters.cycles := by
  unfold access
  split
  · rfl
  · split <;> dsimp only <;> split <;> rfl

theorem cycles_execute (c : Core) : c.execute.core.counters.cycles = c.counters.cycles := by
  unfold execute
  split <;> rfl

theorem cycles_decode (c : Core) : c.decode.core.counters.cycles = c.counters.cycles := by
  unfold decode
  split
  · rfl
  · split
    · rfl
    · dsimp only
      split <;> rfl

theorem cycles_fetch (p : Platform) (c : Core) :
    (c.fetch p).core.counters.cycles = c.counters.cycles := by
  unfold fetch
  split
  · rfl
  · dsimp only
    split <;> rfl

theorem cycles_fetchNext (p : Platform) (c : Core) (stall : Bool) :
    (c.fetchNext p stall).core.counters.cycles = c.counters.cycles := by
  unfold fetchNext
  split
  · rfl
  · split
    · rfl
    · exact cycles_fetch p c

/-- The four stages before write-back leave the cycle counter to the cycle
itself. -/
theorem cycles_flow (p : Platform) (c : Core) :
    (c.flow p).core.counters.cycles = c.counters.cycles := by
  unfold flow
  dsimp only
  split
  · rename_i t _
    cases t <;> exact (cycles_execute _).trans (cycles_access p c)
  · exact (cycles_fetchNext p _ _).trans
      ((cycles_decode _).trans ((cycles_execute _).trans (cycles_access p c)))

/-! ## §2. A cycle moves it by one. -/

/-- Every cycle counts one, whatever happens in it. -/
theorem cycles_tick (p : Platform) (c : Core) (inputs : Inputs) :
    (c.tick p inputs).counters.cycles = c.counters.cycles + 1 := by
  unfold tick cycle
  split
  · rfl
  · dsimp only [endCycle, countCycle]
    split
    · exact congrArg (· + 1) (cycles_writeback c)
    · exact congrArg (· + 1) ((cycles_flow p _).trans (cycles_writeback c))

/-- A schedule takes as many cycles as it is long. -/
theorem cycles_after (p : Platform) (c : Core) (schedule : List Inputs) :
    (c.after p schedule).counters.cycles = c.counters.cycles + schedule.length := by
  induction schedule generalizing c with
  | nil => rfl
  | cons i is ih =>
    have step : (c.tick p i).counters.cycles = c.counters.cycles + 1 := cycles_tick p c i
    have rest := ih (c.tick p i)
    show ((c.tick p i).after p is).counters.cycles = _
    rw [rest, step, List.length_cons]
    omega

end Core

end FiveStage
