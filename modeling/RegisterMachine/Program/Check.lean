import RegisterMachine.Instruction.Decoding
import RegisterMachine.Program

/-! Checking a program without running it: every line is decoded, and a jump to a literal line has
to stay inside the program. -/

namespace RegisterMachine

inductive Defect where
  | undecodable (error : DecodeError)
  | jumpOutside (target : Word) (size : Nat)
  deriving DecidableEq, Repr

structure Finding where
  line : Nat
  defect : Defect
  deriving DecidableEq, Repr

def Finding.message (f : Finding) : String :=
  match f.defect with
  | .undecodable error => s!"line {f.line}: {error.message}"
  | .jumpOutside target size =>
      s!"line {f.line}: jump target {target.text} is outside the program (1..={size})"

def Instruction.isPresent : Except DecodeError (Option Instruction) → Bool
  | .ok (some _) => true
  | _ => false

namespace Program

def jumpDefect? (p : Program) (i : Instruction) : Option Defect := do
  let operand ← i.jumpTarget?
  let target ← operand.expr.literal?
  match p.target? target with
  | some _ => none
  | none => some (.jumpOutside target p.size)

def defect? (p : Program) (line : String) : Option Defect :=
  match Instruction.decode line with
  | .error error => some (.undecodable error)
  | .ok none => none
  | .ok (some i) => p.jumpDefect? i

def findings (p : Program) : List Finding :=
  (p.lines.toList.zipIdx 1).filterMap fun (line, n) =>
    (p.defect? line).map fun defect => { line := n, defect }

def instructionCount (p : Program) : Nat :=
  p.lines.toList.countP fun line => Instruction.isPresent (Instruction.decode line)

/-- The number of instructions, or everything that is wrong, in the order of the lines. -/
def check (p : Program) : Except (List Finding) Nat :=
  match p.findings with
  | [] => .ok p.instructionCount
  | findings => .error findings

end Program

end RegisterMachine
