import RegisterMachine.Text.Lines
import RegisterMachine.Word

/-! Programs: lines of text, addressed from 1. A line is decoded when the machine comes to it, so
that a program may hold lines that are no instructions. -/

namespace RegisterMachine

structure Program where
  lines : Array String
  deriving DecidableEq, Repr

namespace Program

def ofSource (source : String) : Program :=
  { lines := ((Text.lines source.toList).map String.ofList).toArray }

def size (p : Program) : Nat :=
  p.lines.size

def line? (p : Program) (n : Nat) : Option String :=
  if n = 0 then none else p.lines[n - 1]?

def target? (p : Program) (w : Word) : Option Nat :=
  if 1 ≤ w.toInt ∧ w.toInt ≤ p.size then some w.toInt.toNat else none

end Program

end RegisterMachine
