/-! Operation codes, grouped by the operands they take: most take none or exactly one operand
expression, and three write a register or take two operands. -/

namespace RegisterMachine

/-- Arithmetic on `A` and `B`, with the result in `C`. -/
inductive Arithmetic where
  | plus
  | minus
  | multi
  | div
  deriving DecidableEq, Repr

/-- Comparisons of `A` with `B`, with the truth value in `C`. -/
inductive Comparison where
  | eq
  | lt
  | gt
  | notEq
  | le
  | ge
  deriving DecidableEq, Repr

inductive Nullary where
  | pushUp
  | arith (op : Arithmetic)
  | cmpOdd
  | cmp (op : Comparison)
  | println
  | debug
  | halt
  deriving DecidableEq, Repr

inductive Unary where
  | push
  | jmp
  | jpc
  | call
  | ret
  | print
  deriving DecidableEq, Repr

inductive Opcode where
  | load
  | store
  | pop
  | unary (op : Unary)
  | nullary (op : Nullary)
  deriving DecidableEq, Repr

def Arithmetic.mnemonic : Arithmetic → String
  | .plus => "PLUS"
  | .minus => "MINUS"
  | .multi => "MULTI"
  | .div => "DIV"

def Comparison.mnemonic : Comparison → String
  | .eq => "CMPEQ"
  | .lt => "CMPLT"
  | .gt => "CMPGT"
  | .notEq => "CMPNOTEQ"
  | .le => "CMPLE"
  | .ge => "CMPGE"

def Nullary.mnemonic : Nullary → String
  | .pushUp => "PUSHUP"
  | .arith op => op.mnemonic
  | .cmpOdd => "CMPODD"
  | .cmp op => op.mnemonic
  | .println => "PRINTLN"
  | .debug => "DEBUG"
  | .halt => "END"

def Unary.mnemonic : Unary → String
  | .push => "PUSH"
  | .jmp => "JMP"
  | .jpc => "JPC"
  | .call => "CALL"
  | .ret => "RET"
  | .print => "PRINT"

namespace Opcode

def all : List Opcode :=
  [.load, .store, .unary .push, .pop, .nullary .pushUp,
    .nullary (.arith .plus), .nullary (.arith .minus), .nullary (.arith .multi),
    .nullary (.arith .div),
    .nullary .cmpOdd, .nullary (.cmp .eq), .nullary (.cmp .lt), .nullary (.cmp .gt),
    .nullary (.cmp .notEq), .nullary (.cmp .le), .nullary (.cmp .ge),
    .unary .jmp, .unary .jpc, .unary .call, .unary .ret,
    .unary .print, .nullary .println, .nullary .debug, .nullary .halt]

def mnemonic : Opcode → String
  | .load => "LOAD"
  | .store => "STORE"
  | .pop => "POP"
  | .unary op => op.mnemonic
  | .nullary op => op.mnemonic

def arity : Opcode → Nat
  | .load => 2
  | .store => 2
  | .pop => 1
  | .unary _ => 1
  | .nullary _ => 0

/-- The opcode of that name; the case of ASCII letters does not matter. -/
def find? (name : List Char) : Option Opcode :=
  let name := String.ofList (name.map Char.toUpper)
  all.find? (·.mnemonic = name)

end Opcode

end RegisterMachine
