import RegisterMachine.DecodeError
import RegisterMachine.Operand
import RegisterMachine.Text.Blank
import RegisterMachine.Text.Pieces

/-! Reading operands and registers from tokens. A body that is a numeral for a word is that
literal, sign included; any other body is a chain, cut at every plus and minus. -/

namespace RegisterMachine

open Text

/-- Reads a register that is written to. The error names the token with its blanks. -/
def Register.read (token : List Char) : Except DecodeError Register :=
  match Register.find? (trim token) with
  | some r => .ok r
  | none => .error (.unknownRegister (String.ofList token))

def Sign.ofChar? : Char → Option Sign
  | '+' => some .plus
  | '-' => some .minus
  | _ => none

def Term.read (piece : List Char) : Except DecodeError Term :=
  match Word.read? piece with
  | some w => .ok (.literal w)
  | none =>
    match Register.find? piece with
    | some r => .ok (.register r)
    | none =>
      if piece.all Char.isDigit then .error (.invalidNumber (String.ofList piece))
      else .error (.unknownRegister (String.ofList piece))

/-- Reads the body of an operand. A chain with an empty piece is reported by the whole `token`, any
other fault by the leftmost piece at fault. -/
def Expr.read (token body : List Char) : Except DecodeError Expr :=
  match Word.read? body with
  | some w => .ok { head := .literal w, tail := [] }
  | none =>
    let (first, rest) := cut Sign.ofChar? body
    let head := trim first
    let tail := rest.map fun (s, piece) => (s, trim piece)
    if head.isEmpty || tail.any (·.2.isEmpty) then
      .error (.malformedExpression (String.ofList token))
    else do
      let head ← Term.read head
      let tail ← tail.mapM fun (s, piece) => return (s, ← Term.read piece)
      return { head, tail }

namespace Operand

def unwrap? : List Char → Option (List Char)
  | '#' :: '(' :: rest =>
      if rest.getLast? = some ')' then some (trim rest.dropLast) else none
  | _ => none

def read (token : List Char) : Except DecodeError Operand :=
  let token := trim token
  match unwrap? token with
  | some body => return { expr := ← Expr.read token body, indirect := true }
  | none => return { expr := ← Expr.read token token, indirect := false }

end Operand

end RegisterMachine
