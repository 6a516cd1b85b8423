import RegisterMachine.Instruction.Decoding
import RegisterMachine.Sink
import RegisterMachine.Snapshot

/-! The machine: a program with its settings, and the state that running it changes. One turn of
the machine decodes the current line and carries out its instruction. -/

namespace RegisterMachine

structure Machine where
  program : Program
  settings : Settings
  deriving DecidableEq, Repr

structure State where
  store : Store
  pc : Nat
  steps : Nat
  deriving DecidableEq, Repr

structure Scene where
  state : State
  streams : Streams

inductive Flow where
  | next
  | jump (line : Nat)
  | halt
  | emit (channel : Channel) (text : String)
  deriving DecidableEq, Repr

inductive Turn where
  | goes (scene : Scene)
  | halts (scene : Scene)
  | fails (failure : Failure) (scene : Scene)

/-- The result of an operation on two words; there is none for a division by zero. Division drops the
fraction, and the one quotient that is too large for a word wraps around. -/
def Arithmetic.apply? (x y : Word) : Arithmetic → Option Word
  | .plus => some (x + y)
  | .minus => some (x - y)
  | .multi => some (x * y)
  | .div => if y = 0 then none else some (x / y)

def Comparison.holds (x y : Word) : Comparison → Bool
  | .eq => x == y
  | .lt => x < y
  | .gt => y < x
  | .notEq => x != y
  | .le => x ≤ y
  | .ge => y ≤ x

namespace Machine

def window (m : Machine) : Window :=
  m.settings.window

def initial (m : Machine) : State :=
  { store := Store.initial m.window, pc := 1, steps := 0 }

def snapshot (m : Machine) (s : State) : Snapshot :=
  Snapshot.take m.program m.window s.pc s.store

def performNullary (m : Machine) (pc : Nat) : Nullary → Action Flow
  | .pushUp => do
      Action.reserve m.window
      return .next
  | .arith op => do
      let bank := (← get).bank
      match op.apply? bank.a bank.b with
      | some c =>
          Action.setRegister .c c
          return .next
      | none => throw .divisionByZero
  | .cmpOdd => do
      let bank := (← get).bank
      Action.setRegister .c (Word.ofBool (bank.a % 2 != 0))
      return .next
  | .cmp op => do
      let bank := (← get).bank
      Action.setRegister .c (Word.ofBool (op.holds bank.a bank.b))
      return .next
  | .println => return .emit .out "\n"
  | .debug => do
      return .emit .diag (Snapshot.take m.program m.window pc (← get)).render
  | .halt => return .halt

/-- What an operation on one operand does on the line `pc`. A call checks its target before it pushes
the line to return to, and a return evaluates its operand after it has taken that line. -/
def performUnary (m : Machine) (pc : Nat) (o : Operand) : Unary → Action Flow
  | .push => do
      Action.push m.window (← Action.value o)
      return .next
  | .jmp => do
      return .jump (← Action.target m.program (← Action.value o))
  | .jpc => do
      if (← get).bank.c = 0 then
        return .jump (← Action.target m.program (← Action.value o))
      else return .next
  | .call => do
      let line ← Action.target m.program (← Action.value o)
      Action.push m.window (Int32.ofNat (pc + 1))
      return .jump line
  | .ret => do
      let line ← Action.target m.program (← Action.pop m.window)
      Action.discard m.window (← Action.value o)
      return .jump line
  | .print => do
      return .emit .out (← Action.value o).text

def perform (m : Machine) (pc : Nat) : Instruction → Action Flow
  | .load dst src => do
      Action.setRegister dst (← Action.source src)
      return .next
  | .store value address => do
      Action.write (← Action.value address) (← Action.value value)
      return .next
  | .pop dst => do
      Action.setRegister dst (← Action.pop m.window)
      return .next
  | .unary op o => m.performUnary pc o op
  | .nullary op => m.performNullary pc op

/-- Goes on from a performed instruction. A line that cannot be written in full ends the run. -/
def follow (store : Store) (pc steps : Nat) (streams : Streams) : Flow → Turn
  | .next => .goes ⟨⟨store, pc + 1, steps⟩, streams⟩
  | .jump line => .goes ⟨⟨store, line, steps⟩, streams⟩
  | .halt => .halts ⟨⟨store, pc, steps⟩, streams⟩
  | .emit channel text =>
      let bytes := text.toUTF8
      if (streams.get channel).hasRoom bytes then
        .goes ⟨⟨store, pc + 1, steps⟩, streams.write channel bytes⟩
      else
        .fails ⟨pc, .output Sink.refusal⟩ ⟨⟨store, pc, steps⟩, streams.write channel bytes⟩

/-- One turn: a line without an instruction is passed over, and only instructions are counted. -/
def turn (m : Machine) : Scene → Turn
  | ⟨⟨store, pc, steps⟩, streams⟩ =>
    match m.program.line? pc with
    | none => .fails ⟨pc, .endOfProgram⟩ ⟨⟨store, pc, steps⟩, streams⟩
    | some line =>
      match Instruction.decode line with
      | .error error => .fails ⟨pc, .undecodable error⟩ ⟨⟨store, pc, steps⟩, streams⟩
      | .ok none => .goes ⟨⟨store, pc + 1, steps⟩, streams⟩
      | .ok (some i) =>
        match m.perform pc i store with
        | .error cause store => .fails ⟨pc, cause⟩ ⟨⟨store, pc, steps + 1⟩, streams⟩
        | .ok flow store => follow store pc (steps + 1) streams flow

end Machine

end RegisterMachine
