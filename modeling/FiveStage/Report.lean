/-
  FiveStage.Report
  ────────────────
  **THE STATISTICS REPORT.**

  The counters as a text of sections, of which all or some may be wanted.
  Rates are ratios of counters in double precision with four decimal places,
  shares are percentages with two; a denominator of zero counts as one, and
  the rate of instructions is zero before the first cycle.
-/
import FiveStage.Counters
import FiveStage.Text.Numeral
import FiveStage.Text.Ratio

namespace FiveStage

/-! ## §1. Sections. -/

/-- A section of the report. -/
inductive Section where
  /-- Cycles, instructions and rates. -/
  | summary
  /-- Stalls and flushes. -/
  | core
  /-- Retired instructions by kind. -/
  | instructionMix
  /-- Use of the bypass network. -/
  | forwarding
  /-- Interrupts, anomalies and faults. -/
  | diagnostics
  deriving Repr, DecidableEq

namespace Section

/-- All sections, in the order of the report. -/
def all : List Section :=
  [summary, core, instructionMix, forwarding, diagnostics]

/-- The name by which a section is asked for. -/
def name : Section → String
  | summary => "summary"
  | core => "core"
  | instructionMix => "instruction_mix"
  | forwarding => "forwarding"
  | diagnostics => "diagnostics"

end Section

/-- The names of all sections. -/
def sectionNames : List String :=
  Section.all.map Section.name

/-! ## §2. Rates and shares. -/

namespace Counters

/-- Instructions per cycle, zero before the first cycle. -/
def ipc (k : Counters) : Double :=
  if k.cycles = 0 then .ofNat 0 else (Double.ofNat k.retired).div (.ofNat k.cycles)

/-- Cycles per instruction. -/
def cpi (k : Counters) : Double :=
  (Double.ofNat (max 1 k.cycles)).div (.ofNat (max 1 k.retired))

/-- A part of a whole as a percentage. -/
def percent (part whole : Nat) : Double :=
  ((Double.ofNat part).div (.ofNat (max 1 whole))).mul (.ofNat 100)

/-! ## §3. The text. -/

/-- A line of the report: a label, and a value in its column. -/
def line (label value : String) : String :=
  padRight 25 label ++ value

/-- A count and its share of a whole. -/
def shareLine (label : String) (part whole : Nat) : String :=
  line label (toString part ++ " (" ++ (percent part whole).fixed 2 ++ "%)")

/-- A count. -/
def countLine (label : String) (n : Nat) : String :=
  line label (toString n)

/-- The line between sections. -/
def rule : String :=
  "".pushn '-' 58

/-- The line around the report. -/
def frame : String :=
  "".pushn '=' 58

/-- The line for the time the run took on the host, in seconds; only its
label if it was not measured. -/
def hostLine (nanoseconds : Option Nat) : String :=
  nanoseconds.elim "host_seconds" fun n =>
    line "host_seconds" ((Double.nearest n 1000000000).fixed 4 ++ " s")

/-- The lines of a section. -/
def sectionLines (k : Counters) (host : Option Nat) : Section → List String
  | .summary =>
      [hostLine host,
        countLine "sim_cycles" k.cycles,
        countLine "sim_insts" k.retired,
        line "sim_ipc" (k.ipc.fixed 4),
        line "sim_cpi" (k.cpi.fixed 4),
        rule]
  | .core =>
      ["CORE BREAKDOWN",
        shareLine "  stalls.data" k.dataStalls k.cycles,
        shareLine "  stalls.control" k.controlStalls k.cycles,
        countLine "  flushed" k.flushed,
        countLine "  branches.taken" k.branchesTaken,
        rule]
  | .instructionMix =>
      ["INSTRUCTION MIX",
        shareLine "  op.alu" k.alu k.retired,
        shareLine "  op.load" k.loads k.retired,
        shareLine "  op.store" k.stores k.retired,
        shareLine "  op.branch" k.branches k.retired,
        shareLine "  op.system" k.system k.retired,
        rule]
  | .forwarding =>
      ["FORWARDING",
        countLine "  fwd.ex_mem" k.forwardsExMem,
        countLine "  fwd.mem_wb" k.forwardsMemWb,
        rule]
  | .diagnostics =>
      ["DIAGNOSTICS",
        countLine "  interrupts" k.interrupts,
        countLine "  decode.anomalies" k.anomalies,
        countLine "  memory.faults" k.faults,
        countLine "  fetch.fault_cycles" k.fetchFaultCycles]

/-- The report with the sections of these names; no names mean all. -/
def report (k : Counters) (host : Option Nat) (names : List String) : String :=
  let wanted := Section.all.filter fun s => names.isEmpty || names.contains s.name
  let lines := [frame, "RV32I PIPELINE STATISTICS", frame]
    ++ wanted.flatMap (k.sectionLines host) ++ [frame]
  String.join (lines.map (· ++ "\n"))

end Counters

end FiveStage
