/-
  FiveStage.Proofs.Course
  ───────────────────────
  **A RUN, CYCLE BY CYCLE.**

  The course of a run is the list of its cycles: the core each begins with,
  and its inputs.  What a run shows over time is gathered along its course:

      along f       all that `f` finds in the cycles of a run, in order
      along_snoc    one more cycle adds what `f` finds in it

  So a law of whole runs is an induction with one cycle at the end, and the
  records of a run are the instructions that retire along its course.
-/
import FiveStage.Proofs.Provenance
import FiveStage.Proofs.Retiring
import Mathlib.Data.List.Induction

namespace FiveStage.Core

variable {p : Platform} {c : Core}

/-! ## §1. The course of a run. -/

/-- The cycles of a run: the core at the beginning of each, and its inputs. -/
def course (p : Platform) (c : Core) : List Inputs → List (Core × Inputs)
  | [] => []
  | i :: is => (c, i) :: course p (c.tick p i) is

/-- A run in two parts goes through the cycles of each. -/
theorem course_append (p : Platform) (c : Core) (s t : List Inputs) :
    c.course p (s ++ t) = c.course p s ++ (c.after p s).course p t := by
  induction s generalizing c with
  | nil => rfl
  | cons i is ih =>
      show (c, i) :: (c.tick p i).course p (is ++ t) = _
      rw [ih]
      rfl

/-- The last cycle of a run is a cycle of the core before it. -/
theorem after_snoc (p : Platform) (c : Core) (s : List Inputs) (i : Inputs) :
    c.after p (s ++ [i]) = (c.after p s).tick p i := by
  rw [after_append]
  rfl

/-- Every cycle of a run from a reachable core begins with a reachable core. -/
theorem Reachable.of_mem_course (hr : Reachable p c) {s : List Inputs} {q : Core × Inputs}
    (hq : q ∈ c.course p s) : Reachable p q.1 := by
  induction s generalizing c with
  | nil => cases hq
  | cons i is ih =>
      rcases List.mem_cons.mp hq with rfl | hq
      · exact hr
      · exact ih (hr.tick i) hq

/-! ## §2. What is found along it. -/

/-- All that `f` finds in the cycles of a run, in order. -/
def along {α : Type} (f : Core → Inputs → List α) (p : Platform) (c : Core)
    (s : List Inputs) : List α :=
  (c.course p s).flatMap fun q => f q.1 q.2

/-- What is gathered along a run in two parts is gathered along each. -/
theorem along_append {α : Type} (f : Core → Inputs → List α) (p : Platform) (c : Core)
    (s t : List Inputs) :
    along f p c (s ++ t) = along f p c s ++ along f p (c.after p s) t := by
  unfold along
  rw [course_append, List.flatMap_append]

theorem along_snoc {α : Type} (f : Core → Inputs → List α) (p : Platform) (c : Core)
    (s : List Inputs) (i : Inputs) :
    along f p c (s ++ [i]) = along f p c s ++ f (c.after p s) i := by
  rw [along_append]
  simp [along, course]

/-! ## §3. The instructions that retire. -/

/-- The instruction that retires in a cycle. -/
def retiring (c : Core) (i : Inputs) : List MemWb :=
  if i.reset then [] else c.latches.memWb.toList

theorem retiring_of_reset {i : Inputs} (hi : i.reset = true) : c.retiring i = [] := by
  simp [retiring, hi]

/-- Unless it is reset, the core retires what stands in MEM/WB. -/
theorem retiring_of_running {i : Inputs} (hi : i.reset = false) :
    c.retiring i = c.latches.memWb.toList := by
  simp [retiring, hi]

/-- The record that a cycle leaves is that of what retires in it. -/
theorem lastRetired_retiring (p : Platform) (c : Core) (i : Inputs) :
    (c.tick p i).lastRetired.toList = (c.retiring i).map MemWb.retirement := by
  cases hi : i.reset with
  | true =>
      rw [tick_reset p c hi, retiring_of_reset hi]
      rfl
  | false =>
      rw [lastRetired_tick p c hi, retiring_of_running hi]
      cases c.latches.memWb <;> rfl

/-- The instructions that retire in a run, as they stood in MEM/WB. -/
def retiredIn (p : Platform) (c : Core) (s : List Inputs) : List MemWb :=
  along retiring p c s

theorem retiredIn_snoc (p : Platform) (c : Core) (s : List Inputs) (i : Inputs) :
    c.retiredIn p (s ++ [i]) = c.retiredIn p s ++ (c.after p s).retiring i :=
  along_snoc retiring p c s i

/-- **The records of a run** are those of the instructions that retire in it. -/
theorem retirements_eq (p : Platform) (c : Core) (s : List Inputs) :
    c.retirements p s = (c.retiredIn p s).map MemWb.retirement := by
  induction s using List.reverseRecOn with
  | nil => rfl
  | append_singleton s i ih =>
      have hone : (c.after p s).retirements p [i]
          = ((c.after p s).retiring i).map MemWb.retirement := by
        rw [← lastRetired_retiring p]
        exact List.append_nil _
      rw [retirements_append, ih, hone, retiredIn_snoc, List.map_append]

end FiveStage.Core
