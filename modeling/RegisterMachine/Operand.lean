import RegisterMachine.Register

/-! Operand expressions: chains of literals and registers joined by plus and minus, with an
optional wrapper `#(...)` around the whole. -/

namespace RegisterMachine

inductive Term where
  | literal (w : Word)
  | register (r : Register)
  deriving DecidableEq, Repr

inductive Sign where
  | plus
  | minus
  deriving DecidableEq, Repr

structure Expr where
  head : Term
  tail : List (Sign × Term)
  deriving DecidableEq, Repr

/-- The wrapper `indirect` tells a memory cell from a value where a value is loaded, and plays no
part elsewhere. -/
structure Operand where
  expr : Expr
  indirect : Bool
  deriving DecidableEq, Repr

namespace Term

def value (bank : Bank) : Term → Word
  | .literal w => w
  | .register r => bank.get r

def text : Term → String
  | .literal w => w.text
  | .register r => r.name

end Term

namespace Sign

def apply : Sign → Word → Word → Word
  | .plus, x, y => x + y
  | .minus, x, y => x - y

def text : Sign → String
  | .plus => "+"
  | .minus => "-"

end Sign

namespace Expr

def eval (bank : Bank) (e : Expr) : Word :=
  e.tail.foldl (fun x (s, t) => s.apply x (t.value bank)) (e.head.value bank)

def literal? (e : Expr) : Option Word :=
  match e.head, e.tail with
  | .literal w, [] => some w
  | _, _ => none

def text (e : Expr) : String :=
  e.head.text ++ String.join (e.tail.map fun (s, t) => s.text ++ t.text)

end Expr

namespace Operand

/-- A bare operand is a single term without the wrapper. -/
def isBare (o : Operand) : Bool :=
  !o.indirect && o.expr.tail.isEmpty

def text (o : Operand) : String :=
  if o.indirect then "#(" ++ o.expr.text ++ ")" else o.expr.text

end Operand

end RegisterMachine
