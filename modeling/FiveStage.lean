import FiveStage.Main
import FiveStage.Proofs.ByteAccess
import FiveStage.Proofs.DataAccess
import FiveStage.Proofs.Diagnostics
import FiveStage.Proofs.Disassembly
import FiveStage.Proofs.FaultReports
import FiveStage.Proofs.FetchChain
import FiveStage.Proofs.FetchFaults
import FiveStage.Proofs.FetchSlots
import FiveStage.Proofs.Halting
import FiveStage.Proofs.ImageReading
import FiveStage.Proofs.LastWriter
import FiveStage.Proofs.Nesting
import FiveStage.Proofs.Operands
import FiveStage.Proofs.PreciseInterrupts
import FiveStage.Proofs.Reset
import FiveStage.Proofs.Running
import FiveStage.Proofs.TakenBranches
import FiveStage.Proofs.Timing
import FiveStage.Proofs.Transparency
import FiveStage.Proofs.Validation
