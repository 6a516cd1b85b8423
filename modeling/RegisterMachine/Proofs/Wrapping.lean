import Mathlib.Logic.Relation
import RegisterMachine.Proofs.Operands

/-! The wrapper `#(...)` put around an operand in the text of a line. The token is read to the same
expression, or refused for the same reason: only the error of a malformed expression quotes the token
as it is written. So the line decodes to the same instruction but for a wrapper that plays no part in
it. -/

namespace RegisterMachine

open Text

namespace Text

variable {σ : Type} {delimiter? : Char → Option σ}

theorem cut_append_delimiter {c : Char} {s : σ} (delimits : delimiter? c = some s)
    (before text : List Char) :
    cut delimiter? (before ++ c :: text) =
      ((cut delimiter? before).1,
        (cut delimiter? before).2 ++ (s, (cut delimiter? text).1) :: (cut delimiter? text).2) := by
  induction before with
  | nil => exact cut_delimiter delimits text
  | cons b before ih =>
    rw [List.cons_append, cut_cons, cut_cons, ih]
    cases delimiter? b <;> rfl

theorem pieces_append_delimiter {p : Char → Bool} {c : Char} (delimits : p c = true)
    (before text : List Char) :
    pieces p (before ++ c :: text) = pieces p before ++ pieces p text := by
  have delimits : (fun c => if p c then some () else none) c = some () := if_pos delimits
  rw [pieces, cut_append_delimiter delimits, pieces, pieces]
  simp

end Text

namespace Instruction

variable {before after token : List Char} {c : Char}

theorem tokens_append_separator (code : ';' ∉ before) (separates : isSeparator c = true)
    (rest : List Char) : tokens (before ++ c :: rest) = tokens before ++ tokens rest := by
  have inside : ∀ d ∈ before, (d != ';') = true := by
    intro d mem
    rw [bne_iff_ne]
    rintro rfl
    exact code mem
  have kept : (before ++ []).takeWhile (· != ';') = before ++ [].takeWhile (· != ';') :=
    List.takeWhile_append_of_pos inside
  rw [List.takeWhile_nil, List.append_nil] at kept
  have separator : (c != ';') = true := by
    rw [bne_iff_ne]
    rintro rfl
    cases separates
  have whole : (before ++ c :: rest).takeWhile (· != ';') =
      before ++ c :: rest.takeWhile (· != ';') := by
    rw [List.takeWhile_append_of_pos inside, List.takeWhile_cons, if_pos separator]
  rw [tokens, whole, pieces_append_delimiter separates, List.filter_append, tokens, kept, tokens]

/-- A token between the two texts is a token of its own, and in the code of the line. -/
structure Alone (before after : List Char) : Prop where
  code : ';' ∉ before
  starts : ∃ front c, before = front ++ [c] ∧ isSeparator c = true
  ends : ∀ c, after.head? = some c → isSolid c = false

theorem tokens_append_of_end (solid : ∀ c ∈ token, isSolid c = true) (nonempty : token ≠ [])
    (ends : ∀ c, after.head? = some c → isSolid c = false) :
    tokens (token ++ after) = token :: tokens after := by
  cases after with
  | nil => rw [List.append_nil, tokens_token solid nonempty]; rfl
  | cons c rest =>
    have loose := ends c rfl
    simp only [isSolid, Bool.and_eq_false_iff, Bool.not_eq_false', bne_eq_false_iff_eq] at loose
    rcases loose with separates | rfl
    · rw [tokens_append solid nonempty separates, tokens_separator separates]
    · have comment : (token ++ ';' :: rest).takeWhile (· != ';') = token.takeWhile (· != ';') := by
        have alone := takeWhile_solid solid []
        rw [List.append_nil] at alone
        rw [takeWhile_solid solid, alone]
        simp
      have same : tokens (token ++ ';' :: rest) = tokens token := by
        rw [tokens, comment, tokens]
      rw [same, tokens_token solid nonempty]
      rfl

theorem Alone.tokens_eq (alone : Alone before after) (solid : ∀ c ∈ token, isSolid c = true)
    (nonempty : token ≠ []) :
    tokens (before ++ token ++ after) = tokens before ++ token :: tokens after := by
  obtain ⟨front, c, rfl, separates⟩ := alone.starts
  have code : ';' ∉ front := fun mem => alone.code (List.mem_append_left _ mem)
  have split (rest : List Char) : tokens (front ++ [c] ++ rest) = tokens front ++ tokens rest := by
    rw [List.append_assoc]
    exact tokens_append_separator code separates rest
  have edge : tokens (front ++ [c]) = tokens front ++ [] := tokens_append_separator code separates []
  rw [List.append_nil] at edge
  rw [List.append_assoc, split, tokens_append_of_end solid nonempty alone.ends, edge]

end Instruction

/-- The error with a malformed expression quoted as this token. -/
def DecodeError.requote (token : List Char) : DecodeError → DecodeError
  | .malformedExpression _ => .malformedExpression (String.ofList token)
  | e => e

theorem Term.requote_of_read {piece : List Char} {e : DecodeError}
    (refused : Term.read piece = .error e) (token : List Char) : e.requote token = e := by
  unfold Term.read at refused
  split at refused
  · cases refused
  · split at refused
    · cases refused
    · split at refused <;> cases refused <;> rfl

section Errors

variable {α β ε : Type}

theorem error_of_bind {x : Except ε α} {f : α → Except ε β} {e : ε} (failed : x >>= f = .error e) :
    x = .error e ∨ ∃ a, x = .ok a ∧ f a = .error e := by
  cases x with
  | error d =>
    cases failed
    exact .inl rfl
  | ok a => exact .inr ⟨a, rfl, failed⟩

theorem error_of_mapM {f : α → Except ε β} {l : List α} {e : ε} (failed : l.mapM f = .error e) :
    ∃ a ∈ l, f a = .error e := by
  induction l with
  | nil => cases failed
  | cons a l ih =>
    rw [List.mapM_cons] at failed
    obtain first | ⟨b, -, failed⟩ := error_of_bind failed
    · exact ⟨a, List.mem_cons_self, first⟩
    · obtain rest | ⟨results, -, failed⟩ := error_of_bind failed
      · obtain ⟨c, mem, here⟩ := ih rest
        exact ⟨c, List.mem_cons_of_mem a mem, here⟩
      · cases failed

theorem mapError_eq_self {x : Except ε α} {f : ε → ε} (kept : ∀ e, x = .error e → f e = e) :
    x.mapError f = x := by
  cases x with
  | error e => exact congrArg Except.error (kept e rfl)
  | ok a => rfl

end Errors

theorem Expr.read_requote (token other body : List Char) :
    Expr.read token body = (Expr.read other body).mapError (DecodeError.requote token) := by
  rw [Expr.read, Expr.read]
  split
  · rfl
  · generalize cut Sign.ofChar? body = pieces
    obtain ⟨first, rest⟩ := pieces
    dsimp only
    split
    · rfl
    · -- Once no piece is missing, an error quotes a piece and never the token.
      refine (mapError_eq_self fun e failed => ?_).symm
      obtain head | ⟨head, -, failed⟩ := error_of_bind failed
      · exact Term.requote_of_read head token
      · obtain tail | ⟨tail, -, failed⟩ := error_of_bind failed
        · obtain ⟨link, -, piece⟩ := error_of_mapM tail
          obtain term | ⟨t, -, failed⟩ := error_of_bind piece
          · exact Term.requote_of_read term token
          · cases failed
        · cases failed

namespace Operand

variable {token : List Char}

def wrap (token : List Char) : List Char :=
  '#' :: '(' :: (token ++ [')'])

def IsWrapped (token : List Char) : Prop :=
  ∃ inner, trim token = wrap inner

theorem trim_wrap (token : List Char) : trim (wrap token) = wrap token := by
  have opening : isBlank '#' = false := rfl
  have closing : isBlank ')' = false := rfl
  simp [trim, wrap, opening, closing]

theorem unwrap?_wrap (token : List Char) : unwrap? (wrap token) = some (trim token) := by
  simp [unwrap?, wrap]

theorem unwrap?_trim (plain : ¬IsWrapped token) : unwrap? (trim token) = none := by
  unfold unwrap?
  split
  · rename_i rest same
    split
    · rename_i last
      obtain ⟨inner, rfl⟩ := List.getLast?_eq_some_iff.mp last
      exact (plain ⟨inner, same⟩).elim
    · rfl
  · rfl

theorem read_of_plain (plain : ¬IsWrapped token) :
    read token = (Expr.read (trim token) (trim token)).map fun e => ⟨e, false⟩ := by
  rw [read, unwrap?_trim plain]
  cases Expr.read (trim token) (trim token) <;> rfl

theorem read_wrap (plain : ¬IsWrapped token) :
    (∃ o, read token = .ok o ∧ o.indirect = false ∧
      read (wrap token) = .ok { o with indirect := true }) ∨
    ∃ e, read token = .error e ∧ read (wrap token) = .error (e.requote (wrap token)) := by
  have wrapped : read (wrap token) =
      (Expr.read (wrap token) (trim token)).map fun e => ⟨e, true⟩ := by
    rw [read, trim_wrap, unwrap?_wrap]
    dsimp only
    cases Expr.read (wrap token) (trim token) <;> rfl
  rw [wrapped, read_of_plain plain, Expr.read_requote (wrap token) (trim token)]
  cases Expr.read (trim token) (trim token) with
  | error e => exact .inr ⟨e, rfl, rfl⟩
  | ok e => exact .inl ⟨_, rfl, rfl, rfl⟩

theorem exists_read_wrap_iff (plain : ¬IsWrapped token) :
    (∃ o, read (wrap token) = .ok o) ↔ ∃ o, read token = .ok o := by
  obtain ⟨o, found, -, found'⟩ | ⟨e, refused, refused'⟩ := read_wrap plain
  · rw [found, found']
    exact ⟨fun _ => ⟨o, rfl⟩, fun _ => ⟨_, rfl⟩⟩
  · simp [refused, refused']

theorem read_wrap_of_ok (plain : ¬IsWrapped token) {o : Operand} (found : read token = .ok o) :
    o.indirect = false ∧ read (wrap token) = .ok { o with indirect := true } := by
  obtain ⟨other, same, direct, wrapped⟩ | ⟨e, refused, -⟩ := read_wrap plain
  · rw [found] at same
    cases same
    exact ⟨direct, wrapped⟩
  · rw [found] at refused
    cases refused

theorem read_wrap_of_malformed (plain : ¬IsWrapped token) {text : String}
    (refused : read token = .error (.malformedExpression text)) :
    text = String.ofList (trim token) ∧
      read (wrap token) = .error (.malformedExpression (String.ofList (wrap token))) := by
  constructor
  · have quoted := Expr.read_requote (trim token) (trim token) (trim token)
    rw [read_of_plain plain] at refused
    cases body : Expr.read (trim token) (trim token) with
    | error e =>
      rw [body] at refused quoted
      cases refused
      cases quoted
      rfl
    | ok e => rw [body] at refused; cases refused
  · obtain ⟨o, found, -, -⟩ | ⟨e, same, wrapped⟩ := read_wrap plain
    · rw [found] at refused
      cases refused
    · rw [refused] at same
      cases same
      exact wrapped

def strip (o : Operand) : Operand :=
  { o with indirect := false }

end Operand

/-- Whether the operand at this place, written as this token, means the same with the wrapper as
without: the source of a load does if it is a chain, and all operands of the other opcodes do. -/
def Opcode.IgnoresWrapper (place : Nat) (token : List Char) : Opcode → Prop
  | .load => place = 1 ∧ ∀ o, Operand.read token = .ok o → o.expr.tail ≠ []
  | .store | .unary _ => True
  | .pop | .nullary _ => False

namespace Instruction

variable {view : DecodeError → DecodeError}

def strip : Instruction → Instruction
  | .load dst src => .load dst (if src.expr.tail.isEmpty then src else src.strip)
  | .store value address => .store value.strip address.strip
  | .pop dst => .pop dst
  | .unary op o => .unary op o.strip
  | .nullary op => .nullary op

def stripped (view : DecodeError → DecodeError) :
    Except DecodeError Instruction → Except DecodeError Instruction
  | .error e => .error (view e)
  | .ok i => .ok i.strip

theorem assemble_of_length {op : Opcode} {args : List (List Char)}
    (other : args.length ≠ op.arity) :
    assemble op args = .error (.operandCount op args.length) := by
  unfold assemble
  split
  · exact (other rfl).elim
  · exact (other rfl).elim
  · exact (other rfl).elim
  · exact (other rfl).elim
  · exact (other rfl).elim
  · rfl

theorem stripped_bind {α : Type} (x : Except DecodeError α) {f g : α → Except DecodeError Instruction}
    (same : ∀ a, stripped view (f a) = stripped view (g a)) :
    stripped view (x >>= f) = stripped view (x >>= g) := by
  cases x with
  | error e => rfl
  | ok a => exact same a

section Wrap

variable {token : List Char} (plain : ¬Operand.IsWrapped token)
  (quoted : ∀ e, Operand.read token = .error e → view (e.requote (Operand.wrap token)) = view e)
include plain quoted

theorem stripped_read_wrap {f : Operand → Except DecodeError Instruction}
    (same : ∀ o, Operand.read token = .ok o →
      stripped view (f { o with indirect := true }) = stripped view (f o)) :
    stripped view (Operand.read (Operand.wrap token) >>= f) =
      stripped view (Operand.read token >>= f) := by
  obtain ⟨o, read, -, read'⟩ | ⟨e, read, read'⟩ := Operand.read_wrap plain
  · rw [read, read']
    exact same o read
  · rw [read, read']
    exact congrArg Except.error (quoted e read)

theorem stripped_assemble_wrap {op : Opcode} {args rest : List (List Char)}
    (ignores : op.IgnoresWrapper args.length token) :
    stripped view (assemble op (args ++ Operand.wrap token :: rest)) =
      stripped view (assemble op (args ++ token :: rest)) := by
  by_cases count : args.length + (rest.length + 1) = op.arity
  · cases op with
    | load =>
      obtain ⟨place, chain⟩ := ignores
      obtain ⟨dst, rfl⟩ := List.length_eq_one_iff.mp place
      obtain rfl : rest = [] := by
        rw [place, Opcode.arity] at count
        exact List.length_eq_zero_iff.mp (by omega)
      refine stripped_bind (Register.read dst) fun r => stripped_read_wrap plain quoted fun o read => ?_
      have long : o.expr.tail.isEmpty = false := by simpa using chain o read
      simp [stripped, pure, Except.pure, strip, Operand.strip, long]
    | store =>
      cases args with
      | nil =>
        obtain ⟨address, rfl⟩ := List.length_eq_one_iff.mp (by simpa [Opcode.arity] using count)
        refine stripped_read_wrap plain quoted fun o _ => ?_
        cases Operand.read address <;> rfl
      | cons value more =>
        have full : more = [] ∧ rest = [] := by
          simp only [List.length_cons, Opcode.arity] at count
          simp only [← List.length_eq_zero_iff]
          omega
        obtain ⟨rfl, rfl⟩ := full
        exact stripped_bind (Operand.read value) fun v => stripped_read_wrap plain quoted fun o _ => rfl
    | unary op =>
      have alone : args = [] ∧ rest = [] := by
        simp only [Opcode.arity] at count
        simp only [← List.length_eq_zero_iff]
        omega
      obtain ⟨rfl, rfl⟩ := alone
      exact stripped_read_wrap plain quoted fun o _ => rfl
    | pop => exact ignores.elim
    | nullary op => exact ignores.elim
  · -- With a wrong number of operands none of them is read.
    have length (t : List Char) : (args ++ t :: rest).length = args.length + (rest.length + 1) := by
      simp
    have counted (t : List Char) : assemble op (args ++ t :: rest) =
        .error (.operandCount op (args.length + (rest.length + 1))) := by
      rw [← length t] at count ⊢
      exact assemble_of_length count
    rw [counted, counted]

end Wrap

/-- What the line decodes to, without the wrappers that are ignored and with a view of the error. -/
def decodeStripped (view : DecodeError → DecodeError) (line : String) :
    Except DecodeError (Option Instruction) :=
  match decode line with
  | .error e => .error (view e)
  | .ok i => .ok (i.map strip)

theorem decodeStripped_of_tokens {line : String} {name : List Char} {args : List (List Char)}
    {op : Opcode} (same : tokens line.toList = name :: args) (found : Opcode.find? name = some op) :
    decodeStripped view line =
      if name.head? = some '@' then .ok (some (.nullary .debug))
      else (stripped view (assemble op args)).map some := by
  rw [decodeStripped, decode, same, ofTokens]
  by_cases mark : name.head? = some '@'
  · rw [if_pos mark, if_pos mark]
    rfl
  · rw [if_neg mark, if_neg mark, found]
    dsimp only
    cases assemble op args <;> rfl

/-- The second line is the first with the wrapper around the operand that is written as `token`. -/
inductive Wraps (token : List Char) : String → String → Prop where
  | operand {before after name : List Char} {args : List (List Char)} {op : Opcode}
      (alone : Alone before after) (solid : ∀ c ∈ token, isSolid c = true) (nonempty : token ≠ [])
      (plain : ¬Operand.IsWrapped token) (first : tokens before = name :: args)
      (found : Opcode.find? name = some op) (ignores : op.IgnoresWrapper args.length token) :
      Wraps token (String.ofList (before ++ token ++ after))
        (String.ofList (before ++ Operand.wrap token ++ after))

theorem Wraps.decodeStripped_eq {token : List Char} {line line' : String}
    (wraps : Wraps token line line')
    (quoted : ∀ e, Operand.read token = .error e →
      view (e.requote (Operand.wrap token)) = view e) :
    decodeStripped view line' = decodeStripped view line := by
  obtain ⟨alone, solid, nonempty, plain, first, found, ignores⟩ := wraps
  rename_i before after name args op
  have solid' : ∀ c ∈ Operand.wrap token, isSolid c = true := by
    intro c mem
    simp only [Operand.wrap, List.mem_cons, List.mem_append, List.not_mem_nil, or_false] at mem
    rcases mem with rfl | rfl | mem | rfl
    · rfl
    · rfl
    · exact solid c mem
    · rfl
  have nonempty' : Operand.wrap token ≠ [] := List.cons_ne_nil _ _
  have line : tokens (String.ofList (before ++ token ++ after)).toList =
      name :: (args ++ token :: tokens after) := by
    rw [String.toList_ofList, alone.tokens_eq solid nonempty, first, List.cons_append]
  have line' : tokens (String.ofList (before ++ Operand.wrap token ++ after)).toList =
      name :: (args ++ Operand.wrap token :: tokens after) := by
    rw [String.toList_ofList, alone.tokens_eq solid' nonempty', first, List.cons_append]
  rw [decodeStripped_of_tokens line found, decodeStripped_of_tokens line' found,
    stripped_assemble_wrap plain quoted ignores]

/-- The wrapper is put around or taken from any of the allowed tokens, as often as one likes. -/
def Rewraps (allowed : List Char → Prop) : String → String → Prop :=
  Relation.EqvGen fun line line' => ∃ token, allowed token ∧ Wraps token line line'

theorem Rewraps.decodeStripped_eq {allowed : List Char → Prop} {line line' : String}
    (rewraps : Rewraps allowed line line')
    (quoted : ∀ token, allowed token → ∀ e, Operand.read token = .error e →
      view (e.requote (Operand.wrap token)) = view e) :
    decodeStripped view line = decodeStripped view line' := by
  induction rewraps with
  | rel line line' edit =>
    obtain ⟨token, allows, wraps⟩ := edit
    exact (wraps.decodeStripped_eq (quoted token allows)).symm
  | refl line => rfl
  | symm line line' _ ih => exact ih.symm
  | trans line mid line' _ _ first second => exact first.trans second

end Instruction

end RegisterMachine
