import RegisterMachine.Word

/-! The five registers and the bank that holds their values. -/

namespace RegisterMachine

inductive Register where
  | a
  | b
  | c
  | fp
  | sp
  deriving DecidableEq, Repr

namespace Register

def all : List Register := [.a, .b, .c, .fp, .sp]

def name : Register → String
  | .a => "A"
  | .b => "B"
  | .c => "C"
  | .fp => "FP"
  | .sp => "SP"

def find? (name : List Char) : Option Register :=
  let name := String.ofList (name.map Char.toUpper)
  all.find? (·.name = name)

end Register

structure Bank where
  a : Word
  b : Word
  c : Word
  fp : Word
  sp : Word
  deriving DecidableEq, Repr

namespace Bank

/-- A fresh bank: both pointers stand one past the highest address. -/
def initial (top : Word) : Bank :=
  { a := 0, b := 0, c := 0, fp := top, sp := top }

def get (bank : Bank) : Register → Word
  | .a => bank.a
  | .b => bank.b
  | .c => bank.c
  | .fp => bank.fp
  | .sp => bank.sp

def set (bank : Bank) (r : Register) (w : Word) : Bank :=
  match r with
  | .a => { bank with a := w }
  | .b => { bank with b := w }
  | .c => { bank with c := w }
  | .fp => { bank with fp := w }
  | .sp => { bank with sp := w }

theorem get_set (bank : Bank) (r s : Register) (w : Word) :
    (bank.set r w).get s = if s = r then w else bank.get s := by
  cases r <;> cases s <;> rfl

end Bank

end RegisterMachine
