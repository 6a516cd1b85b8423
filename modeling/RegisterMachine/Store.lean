import RegisterMachine.Failure
import RegisterMachine.Memory
import RegisterMachine.Operand
import RegisterMachine.Program
import RegisterMachine.Settings

/-! The data an instruction works on: the registers and the memory. An action that fails keeps what
it has done to them so far. The stack shares the memory with everything else and grows downward
from the top of the window. -/

namespace RegisterMachine

structure Store where
  bank : Bank
  memory : Memory
  deriving DecidableEq, Repr

def Store.initial (w : Window) : Store :=
  { bank := Bank.initial w.top, memory := Memory.zeros w.base w.cells }

abbrev Action := EStateM Cause Store

namespace Action

def value (o : Operand) : Action Word := fun s =>
  .ok (o.expr.eval s.bank) s

def setRegister (r : Register) (w : Word) : Action Unit := fun s =>
  .ok () { s with bank := s.bank.set r w }

def read (address : Word) : Action Word := fun s =>
  match s.memory.read? address with
  | some w => .ok w s
  | none => .error (.addressOutOfRange address) s

def write (address w : Word) : Action Unit := fun s =>
  if s.memory.contains address then .ok () { s with memory := s.memory.write address w }
  else .error (.addressOutOfRange address) s

/-- What a load takes from its source: the value of a bare operand, and otherwise the cell that the
value is the address of. -/
def source (o : Operand) : Action Word := do
  let w ← value o
  if o.isBare then return w else read w

def reserve (w : Window) : Action Unit := fun s =>
  let sp := s.bank.sp
  if sp ≤ w.base ∨ w.top < sp then .error (.stackOverflow sp) s
  else .ok () { s with bank := { s.bank with sp := sp - 1 } }

def push (w : Window) (x : Word) : Action Unit := do
  reserve w
  write (← get).bank.sp x

def pop (w : Window) : Action Word := do
  let sp := (← get).bank.sp
  if w.top ≤ sp then throw (.stackUnderflow sp)
  else
    let x ← read sp
    setRegister .sp (sp + 1)
    return x

/-- Moves the stack pointer by any number of cells, as long as it stays between `base` and `top`. The
sum is taken over the integers. -/
def discard (w : Window) (count : Word) : Action Unit := fun s =>
  let sp := s.bank.sp
  let moved := sp.toInt + count.toInt
  if w.top.toInt < moved then .error (.stackUnderflow sp) s
  else if moved < w.base.toInt then .error (.stackOverflow sp) s
  else .ok () { s with bank := { s.bank with sp := Int32.ofInt moved } }

theorem source_eq (o : Operand) (s : Store) :
    source o s =
      if o.isBare then .ok (o.expr.eval s.bank) s else read (o.expr.eval s.bank) s := by
  by_cases bare : o.isBare = true <;>
    simp [source, bind, EStateM.bind, value, bare, pure, EStateM.pure]

theorem push_eq (w : Window) (x : Word) (s : Store) :
    push w x s =
      if s.bank.sp ≤ w.base ∨ w.top < s.bank.sp then .error (.stackOverflow s.bank.sp) s
      else write (s.bank.sp - 1) x { s with bank := { s.bank with sp := s.bank.sp - 1 } } := by
  by_cases full : s.bank.sp ≤ w.base ∨ w.top < s.bank.sp
  · simp only [push, bind, EStateM.bind, reserve, if_pos full]
  · simp only [push, bind, EStateM.bind, reserve, if_neg full]
    rfl

theorem pop_eq (w : Window) (s : Store) :
    pop w s =
      if w.top ≤ s.bank.sp then .error (.stackUnderflow s.bank.sp) s
      else
        match s.memory.read? s.bank.sp with
        | some x => .ok x { s with bank := { s.bank with sp := s.bank.sp + 1 } }
        | none => .error (.addressOutOfRange s.bank.sp) s := by
  have unfolded : pop w s =
      (if w.top ≤ s.bank.sp then throw (.stackUnderflow s.bank.sp)
        else do
          let x ← read s.bank.sp
          setRegister .sp (s.bank.sp + 1)
          return x : Action Word) s := rfl
  rw [unfolded]
  by_cases empty : w.top ≤ s.bank.sp
  · rw [if_pos empty, if_pos empty]
    rfl
  · rw [if_neg empty, if_neg empty]
    simp only [bind, EStateM.bind, read]
    cases s.memory.read? s.bank.sp <;> rfl

def target (p : Program) (w : Word) : Action Nat := fun s =>
  match p.target? w with
  | some n => .ok n s
  | none => .error (.jumpOutside w) s

end Action

end RegisterMachine
