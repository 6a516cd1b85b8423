import RegisterMachine.Opcode
import RegisterMachine.Operand

/-! Instructions: an opcode with the operands it takes. -/

namespace RegisterMachine

inductive Instruction where
  | load (dst : Register) (src : Operand)
  | store (value address : Operand)
  | pop (dst : Register)
  | unary (op : Unary) (operand : Operand)
  | nullary (op : Nullary)
  deriving DecidableEq, Repr

namespace Instruction

def opcode : Instruction → Opcode
  | .load _ _ => .load
  | .store _ _ => .store
  | .pop _ => .pop
  | .unary op _ => .unary op
  | .nullary op => .nullary op

/-- The operand that names the line to go on at. A return takes its line from the stack. -/
def jumpTarget? : Instruction → Option Operand
  | .unary .jmp o => some o
  | .unary .jpc o => some o
  | .unary .call o => some o
  | _ => none

def operands : Instruction → List Operand
  | .load _ src => [src]
  | .store value address => [value, address]
  | .unary _ o => [o]
  | .pop _ | .nullary _ => []

def text : Instruction → String
  | .load dst src => "LOAD " ++ dst.name ++ ", " ++ src.text
  | .store value address => "STORE " ++ value.text ++ ", " ++ address.text
  | .pop dst => "POP " ++ dst.name
  | .unary op o => op.mnemonic ++ " " ++ o.text
  | .nullary op => op.mnemonic

end Instruction

end RegisterMachine
