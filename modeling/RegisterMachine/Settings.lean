import RegisterMachine.Duration
import RegisterMachine.Word

/-! Settings of a run: the window of addresses that memory covers and the time the run may take. -/

namespace RegisterMachine

/-- The addresses from `base` up to but not including `top`. A window may be empty, also because
`base` is above `top`. -/
structure Window where
  base : Word
  top : Word
  deriving DecidableEq, Repr

inductive WindowError where
  | empty (base top : Word)
  | tooLarge (cells : Nat)
  deriving DecidableEq, Repr

namespace Window

def standard : Window := { base := 800, top := 1000 }

def maxCells : Nat := 1048576

def cells (w : Window) : Nat :=
  (w.top.toInt - w.base.toInt).toNat

def checked (base top : Word) : Except WindowError Window :=
  let w : Window := { base, top }
  if top ≤ base then .error (.empty base top)
  else if maxCells < w.cells then .error (.tooLarge w.cells)
  else .ok w

end Window

def WindowError.message : WindowError → String
  | .empty base top =>
      s!"empty memory window: base offset {base.text} must be below max address {top.text}"
  | .tooLarge cells =>
      s!"memory window of {cells} cells exceeds the limit of {Window.maxCells}"

structure Settings where
  window : Window := Window.standard
  budget : Option Duration := none
  deriving DecidableEq, Repr

end RegisterMachine
