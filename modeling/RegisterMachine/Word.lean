import RegisterMachine.Text.Decimal

/-! Machine words: 32 bits, two's complement, with arithmetic that wraps around. -/

namespace RegisterMachine

open Text

abbrev Word := Int32

namespace Word

def read? (text : List Char) : Option Word :=
  match Decimal.int? text with
  | some n => if -2147483648 ≤ n ∧ n ≤ 2147483647 then some (Int32.ofInt n) else none
  | none => none

def text (w : Word) : String :=
  Decimal.ofInt w.toInt

def ofBool (b : Bool) : Word :=
  if b then 1 else 0

end Word

end RegisterMachine
