import RegisterMachine.Instruction
import RegisterMachine.Operand.Reading

/-! Decoding a line. A semicolon starts a comment, and blanks and commas separate the tokens before
it. A line without tokens holds no instruction. -/

namespace RegisterMachine.Instruction

open Text

def isSeparator (c : Char) : Bool :=
  c == ',' || isBlank c

def tokens (line : List Char) : List (List Char) :=
  (pieces isSeparator (line.takeWhile (· != ';'))).filter (!·.isEmpty)

/-- The instruction with the given opcode. The number of operands is checked first, then the
operands are read in order. -/
def assemble : Opcode → List (List Char) → Except DecodeError Instruction
  | .load, [dst, src] => return .load (← Register.read dst) (← Operand.read src)
  | .store, [value, address] => return .store (← Operand.read value) (← Operand.read address)
  | .pop, [dst] => return .pop (← Register.read dst)
  | .unary op, [o] => return .unary op (← Operand.read o)
  | .nullary op, [] => return .nullary op
  | op, args => .error (.operandCount op args.length)

/-- A first token that starts with `@` marks a dump of the machine, whatever follows it. -/
def ofTokens : List (List Char) → Except DecodeError (Option Instruction)
  | [] => return none
  | name :: args =>
    if name.head? = some '@' then return some (.nullary .debug)
    else
      match Opcode.find? name with
      | none => .error (.unknownOpcode (String.ofList name))
      | some op => return some (← assemble op args)

def decode (line : String) : Except DecodeError (Option Instruction) :=
  ofTokens (tokens line.toList)

end RegisterMachine.Instruction
