import RegisterMachine.Main
import RegisterMachine.Proofs.Actions
import RegisterMachine.Proofs.Runs
import RegisterMachine.Proofs.Turns
import RegisterMachine.Proofs.StaticCheck
import RegisterMachine.Proofs.Preemption
import RegisterMachine.Proofs.ProgramCounter
import RegisterMachine.Proofs.Numerals
import RegisterMachine.Proofs.Printing
import RegisterMachine.Proofs.Writes
import RegisterMachine.Proofs.StackPointer
import RegisterMachine.Proofs.Coherence
import RegisterMachine.Proofs.Simulation
import RegisterMachine.Proofs.WiderWindow
import RegisterMachine.Proofs.WrapperTransparency
import RegisterMachine.Proofs.Emission
import RegisterMachine.Proofs.Reformatting
import RegisterMachine.Proofs.VisitedLines
import RegisterMachine.Proofs.StreamLimits
import RegisterMachine.Proofs.PointerArithmetic
import RegisterMachine.Proofs.Aftermath
import RegisterMachine.Proofs.MutedDumps
import RegisterMachine.Proofs.Layout
import RegisterMachine.Proofs.Spelling
import RegisterMachine.Proofs.Grammar
import RegisterMachine.Proofs.Findings
import RegisterMachine.Proofs.Standstill
import RegisterMachine.Proofs.CallingConvention
import RegisterMachine.Proofs.ChainSums
import RegisterMachine.Proofs.SourceLines
import RegisterMachine.Proofs.Dumps
import RegisterMachine.Proofs.ForwardPrograms
import RegisterMachine.Proofs.ErrorLines
import RegisterMachine.Proofs.CommandReports
import RegisterMachine.Proofs.MemoryMap
import RegisterMachine.Proofs.CommandLines
import RegisterMachine.Proofs.TimeoutValues
