import RegisterMachine.Program

/-! Loading a program from a file. Its content has to be UTF-8 without a fault. -/

namespace RegisterMachine

/-- Why a file cannot be read: it is not there, or the reason is passed on as it is told. -/
inductive ReadFailure where
  | absent
  | other (reason : String)
  deriving DecidableEq, Repr

inductive LoadError where
  | notFound (path : String)
  | unreadable (path reason : String)
  deriving DecidableEq, Repr

def LoadError.message : LoadError → String
  | .notFound path => s!"file not found: {path}"
  | .unreadable path reason => s!"cannot read '{path}': {reason}"

def Program.load (path : String) :
    Except ReadFailure ByteArray → Except LoadError Program
  | .error .absent => .error (.notFound path)
  | .error (.other reason) => .error (.unreadable path reason)
  | .ok content =>
    match String.fromUTF8? content with
    | some source => .ok (Program.ofSource source)
    | none => .error (.unreadable path "stream did not contain valid UTF-8")

end RegisterMachine
