import RegisterMachine.Store
import RegisterMachine.Text.Blank

/-! Snapshots of the machine for its user: the current line, the registers and the live part of the
stack, from the highest address down. -/

namespace RegisterMachine

structure Slot where
  address : Word
  value : Word
  atSp : Bool
  atFp : Bool
  deriving DecidableEq, Repr

structure Snapshot where
  line : Nat
  text : String
  bank : Bank
  slots : List Slot
  deriving DecidableEq, Repr

namespace Slot

def marker (s : Slot) : String :=
  match s.atSp, s.atFp with
  | true, true => "  <- SP, FP"
  | true, false => "  <- SP"
  | false, true => "  <- FP"
  | false, false => ""

def render (s : Slot) : String :=
  "    [" ++ s.address.text ++ "] " ++ s.value.text ++ s.marker ++ "\n"

end Slot

namespace Snapshot

def bottom (w : Window) (s : Store) : Word :=
  max s.bank.sp w.base

/-- The live addresses, highest first. -/
def liveAddresses (w : Window) (s : Store) : List Word :=
  let count := (w.top.toInt - (bottom w s).toInt).toNat
  (List.range count).map fun (i : Nat) => Int32.ofInt (w.top.toInt - 1 - i)

def slot (s : Store) (address : Word) : Slot :=
  { address
    value := (s.memory.read? address).getD 0
    atSp := address == s.bank.sp
    atFp := address == s.bank.fp }

def currentText (p : Program) (line : Nat) : String :=
  match p.line? line with
  | some text => String.ofList (Text.trim text.toList)
  | none => "<end of program>"

def take (p : Program) (w : Window) (line : Nat) (s : Store) : Snapshot :=
  { line
    text := currentText p line
    bank := s.bank
    slots := (liveAddresses w s).map (slot s) }

def opening (line : Nat) : String :=
  let line := Text.Decimal.ofNat line
  String.join ["--- machine state at line ", line, " ---\n", "  line ", line, ": "]

def registers (s : Snapshot) : String :=
  String.join ["  A=", s.bank.a.text, " B=", s.bank.b.text, " C=", s.bank.c.text, "\n",
    "  PC=", Text.Decimal.ofNat s.line, " FP=", s.bank.fp.text, " SP=", s.bank.sp.text, "\n"]

def heading (s : Snapshot) : String :=
  opening s.line ++ s.text ++ "\n" ++ s.registers

def stack (s : Snapshot) : String :=
  match s.slots with
  | [] => "  stack: (empty)\n"
  | slots => "  stack:\n" ++ String.join (slots.map Slot.render)

def render (s : Snapshot) : String :=
  s.heading ++ s.stack

end Snapshot

end RegisterMachine
