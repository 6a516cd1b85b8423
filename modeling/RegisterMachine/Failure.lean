import RegisterMachine.DecodeError
import RegisterMachine.Duration
import RegisterMachine.Word

/-! Why a run stops before the end of its program. -/

namespace RegisterMachine

inductive Cause where
  | undecodable (error : DecodeError)
  | addressOutOfRange (address : Word)
  | divisionByZero
  | stackOverflow (sp : Word)
  | stackUnderflow (sp : Word)
  | timeout (budget : Duration)
  | jumpOutside (target : Word)
  | endOfProgram
  | output (reason : String)
  deriving DecidableEq, Repr

structure Failure where
  line : Nat
  cause : Cause
  deriving DecidableEq, Repr

def Failure.message (f : Failure) : String :=
  match f.cause with
  | .undecodable error => s!"syntax error at line {f.line}: {error.message}"
  | .addressOutOfRange address =>
      s!"address {address.text} out of range (null pointer) at line {f.line}"
  | .divisionByZero => s!"division by zero at line {f.line}"
  | .stackOverflow sp => s!"stack overflow (SP={sp.text}) at line {f.line}"
  | .stackUnderflow sp => s!"stack underflow (SP={sp.text}) at line {f.line}"
  | .timeout budget => s!"timeout of {budget.milliseconds} ms exceeded at line {f.line}"
  | .jumpOutside target => s!"jump target {target.text} outside the program at line {f.line}"
  | .endOfProgram => s!"unexpected end of program at line {f.line}"
  | .output reason => s!"output error at line {f.line}: {reason}"

end RegisterMachine
