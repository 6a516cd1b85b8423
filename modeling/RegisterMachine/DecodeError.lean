import RegisterMachine.Opcode

/-! Why a line of text is no instruction. -/

namespace RegisterMachine

inductive DecodeError where
  | unknownOpcode (token : String)
  | operandCount (opcode : Opcode) (found : Nat)
  | unknownRegister (token : String)
  | invalidNumber (token : String)
  | malformedExpression (token : String)
  deriving DecidableEq, Repr

def DecodeError.message : DecodeError → String
  | .unknownOpcode token => s!"unknown opcode '{token}'"
  | .operandCount opcode found =>
      s!"{opcode.mnemonic} expects {opcode.arity} operand(s), found {found}"
  | .unknownRegister token => s!"unknown register '{token}'"
  | .invalidNumber token => s!"invalid number '{token}'"
  | .malformedExpression token => s!"malformed expression '{token}'"

end RegisterMachine
