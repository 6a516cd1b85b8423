import Mathlib
import RegisterMachine.Proofs.Layout

/-! What decoding sees of the letters in a line: nothing of their case. A line in upper case decodes to
the same instruction, or is refused for the same reason with the quoted text in upper case. -/

namespace RegisterMachine

open Text

namespace Text

def upper (text : List Char) : List Char :=
  text.map Char.toUpper

theorem upper_upper (text : List Char) : upper (upper text) = upper text := by
  simp [upper, Function.comp_def]

theorem toUpper_of_other {c : Char} (other : c.isAlpha = false) : c.toUpper = c := by
  rw [Char.isAlpha, Bool.or_eq_false_iff] at other
  exact Char.toUpper_eq_of_not_isLower (by simp [other.2])

theorem toUpper_eq_iff {c d : Char} (other : d.isAlpha = false) : c.toUpper = d ↔ c = d := by
  constructor
  · rintro rfl
    rw [Char.isAlpha_toUpper_eq_isAlpha] at other
    exact (toUpper_of_other other).symm
  · rintro rfl
    exact toUpper_of_other other

theorem upper_eq_self {text : List Char} (others : ∀ c ∈ text, c.isAlpha = false) :
    upper text = text :=
  (List.map_congr_left fun c mem => toUpper_of_other (others c mem)).trans text.map_id

theorem apply_toUpper {α : Type} {f : Char → α} {x : α} (letters : ∀ c, c.isAlpha = true → f c = x)
    (c : Char) : f c.toUpper = f c := by
  cases letter : c.isAlpha with
  | true =>
    have raised : c.toUpper.isAlpha = true := by rw [Char.isAlpha_toUpper_eq_isAlpha, letter]
    rw [letters c letter, letters _ raised]
  | false => rw [toUpper_of_other letter]

theorem isAlphanum_of_isAlpha {c : Char} (letter : c.isAlpha = true) : c.isAlphanum = true := by
  rw [Char.isAlphanum, letter, Bool.true_or]

theorem isAlpha_of_isDigit {c : Char} (digit : c.isDigit = true) : c.isAlpha = false := by
  simp only [Char.isDigit, Char.isAlpha, Char.isUpper, Char.isLower, UInt32.le_iff_toNat_le] at digit ⊢
  grind

theorem isDigit_toUpper (c : Char) : c.toUpper.isDigit = c.isDigit := by
  have letters (c : Char) (letter : c.isAlpha = true) : c.isDigit = false := by
    cases digit : c.isDigit with
    | false => rfl
    | true =>
      rw [isAlpha_of_isDigit digit] at letter
      cases letter
  exact apply_toUpper letters c

theorem isSeparator_toUpper (c : Char) :
    Instruction.isSeparator c.toUpper = Instruction.isSeparator c :=
  apply_toUpper (fun _ letter => Instruction.isSeparator_of_isSolid
    (isSolid_of_isAlphanum (isAlphanum_of_isAlpha letter))) c

theorem isBlank_toUpper (c : Char) : isBlank c.toUpper = isBlank c :=
  apply_toUpper (fun _ letter => Instruction.isBlank_of_isSolid
    (isSolid_of_isAlphanum (isAlphanum_of_isAlpha letter))) c

theorem ofChar?_toUpper (c : Char) : Sign.ofChar? c.toUpper = Sign.ofChar? c :=
  apply_toUpper (fun _ letter => Sign.ofChar?_eq_none (isAlphanum_of_isAlpha letter)) c

theorem trim_upper (text : List Char) : trim (upper text) = upper (trim text) := by
  have blank : isBlank ∘ Char.toUpper = isBlank := funext isBlank_toUpper
  simp only [trim, upper, List.dropWhile_map, blank, ← List.map_reverse]

theorem cut_upper {σ : Type} {delimiter? : Char → Option σ}
    (blind : ∀ c, delimiter? c.toUpper = delimiter? c) (text : List Char) :
    cut delimiter? (upper text) =
      (upper (cut delimiter? text).1,
        (cut delimiter? text).2.map fun (s, piece) => (s, upper piece)) := by
  induction text with
  | nil => rfl
  | cons c text ih =>
    have first : upper (c :: text) = c.toUpper :: upper text := rfl
    rw [first, cut_cons, cut_cons, blind, ih]
    cases delimiter? c <;> rfl

theorem pieces_upper {p : Char → Bool} (blind : ∀ c, p c.toUpper = p c) (text : List Char) :
    pieces p (upper text) = (pieces p text).map upper := by
  rw [pieces, cut_upper fun c => by rw [blind], pieces]
  simp [Function.comp_def]

end Text

theorem Instruction.tokens_upper (line : List Char) :
    tokens (upper line) = (tokens line).map upper := by
  have code : (upper line).takeWhile (· != ';') = upper (line.takeWhile (· != ';')) := by
    have blind : (fun c => c != ';') ∘ Char.toUpper = fun c => c != ';' := by
      funext c
      rw [Function.comp_apply, Bool.eq_iff_iff, bne_iff_ne, bne_iff_ne, Ne, toUpper_eq_iff rfl]
    rw [upper, List.takeWhile_map, blind, upper]
  have filled : (fun t : List Char => !t.isEmpty) ∘ upper = fun t => !t.isEmpty := by
    funext t
    simp [upper]
  rw [tokens, code, pieces_upper isSeparator_toUpper, List.filter_map, filled, tokens]

theorem Word.isAlpha_of_read? {text : List Char} {w : Word} (found : read? text = some w) :
    ∀ c ∈ text, c.isAlpha = false := by
  obtain ⟨digits, -, each, ⟨rfl, -⟩ | ⟨rfl, -⟩ | rfl⟩ := Decimal.int?_eq_some (read?_eq_some found)
  · exact fun c mem => isAlpha_of_isDigit (each c mem)
  · rw [List.forall_mem_cons]
    exact ⟨rfl, fun c mem => isAlpha_of_isDigit (each c mem)⟩
  · rw [List.forall_mem_cons]
    exact ⟨rfl, fun c mem => isAlpha_of_isDigit (each c mem)⟩

theorem Word.read?_upper (text : List Char) : read? (upper text) = read? text := by
  cases found : read? text with
  | some w => rw [upper_eq_self (isAlpha_of_read? found), found]
  | none =>
    cases raised : read? (upper text) with
    | none => rfl
    | some w =>
      have others : ∀ c ∈ text, c.isAlpha = false := by
        intro c mem
        rw [← Char.isAlpha_toUpper_eq_isAlpha]
        exact isAlpha_of_read? raised _ (List.mem_map_of_mem mem)
      rw [upper_eq_self others, found] at raised
      cases raised

theorem Register.find?_upper (name : List Char) : find? (upper name) = find? name := by
  rw [find?, find?, ← upper, ← upper, upper_upper]

theorem Opcode.find?_upper (name : List Char) : find? (upper name) = find? name := by
  rw [find?, find?, ← upper, ← upper, upper_upper]

def DecodeError.upper : DecodeError → DecodeError
  | .unknownOpcode token => .unknownOpcode (String.ofList (Text.upper token.toList))
  | .operandCount op found => .operandCount op found
  | .unknownRegister token => .unknownRegister (String.ofList (Text.upper token.toList))
  | .invalidNumber token => .invalidNumber (String.ofList (Text.upper token.toList))
  | .malformedExpression token => .malformedExpression (String.ofList (Text.upper token.toList))

section Errors

variable {α β ε : Type} {f : ε → ε}

theorem mapError_bind (x : Except ε α) (g : α → Except ε β) :
    (x >>= g).mapError f = x.mapError f >>= fun a => (g a).mapError f := by
  cases x <;> rfl

theorem mapError_mapM (g : α → Except ε β) (l : List α) :
    (l.mapM g).mapError f = l.mapM fun a => (g a).mapError f := by
  induction l with
  | nil => rfl
  | cons a l ih =>
    rw [List.mapM_cons, List.mapM_cons, mapError_bind, ← ih]
    cases (g a).mapError f with
    | error e => rfl
    | ok b => cases l.mapM g <;> rfl

end Errors

theorem Register.read_upper (token : List Char) :
    read (upper token) = (read token).mapError DecodeError.upper := by
  rw [read, trim_upper, find?_upper, read]
  cases find? (trim token) with
  | some r => rfl
  | none => simp [Except.mapError, DecodeError.upper]

theorem Term.read_upper (piece : List Char) :
    read (upper piece) = (read piece).mapError DecodeError.upper := by
  rw [read, read, Word.read?_upper, Register.find?_upper]
  cases Word.read? piece with
  | some w => rfl
  | none =>
    cases Register.find? piece with
    | some r => rfl
    | none =>
      have digits : (upper piece).all Char.isDigit = piece.all Char.isDigit := by
        simp [upper, Function.comp_def, isDigit_toUpper]
      dsimp only
      rw [digits]
      split <;> simp [Except.mapError, DecodeError.upper]

theorem Sign.trim_links_upper (links : List (Sign × List Char)) :
    (links.map fun (s, piece) => (s, upper piece)).map (fun (s, piece) => (s, trim piece)) =
      (links.map fun (s, piece) => (s, trim piece)).map fun (s, piece) => (s, upper piece) := by
  simp [trim_upper]

theorem Expr.read_upper (token body : List Char) :
    read (upper token) (upper body) = (read token body).mapError DecodeError.upper := by
  rw [read, read, Word.read?_upper]
  cases Word.read? body with
  | some w => rfl
  | none =>
    rw [cut_upper ofChar?_toUpper]
    generalize cut Sign.ofChar? body = pieces
    obtain ⟨first, rest⟩ := pieces
    dsimp only
    rw [trim_upper, Sign.trim_links_upper]
    generalize trim first = head
    generalize rest.map (fun (s, piece) => (s, trim piece)) = tail
    have missing : ((upper head).isEmpty ||
        (tail.map fun (s, piece) => (s, upper piece)).any (·.2.isEmpty)) =
          (head.isEmpty || tail.any (·.2.isEmpty)) := by
      simp [upper, Function.comp_def]
    rw [missing]
    split
    · simp [Except.mapError, DecodeError.upper]
    · rw [mapError_bind, ← Term.read_upper]
      congr 1
      funext head
      rw [mapError_bind, mapError_mapM, List.mapM_map]
      simp only [mapError_bind, ← Term.read_upper]
      rfl

theorem Operand.unwrap?_upper (token : List Char) :
    unwrap? (upper token) = (unwrap? token).map upper := by
  by_cases opens : ∃ rest, token = '#' :: '(' :: rest
  · obtain ⟨rest, rfl⟩ := opens
    have first : upper ('#' :: '(' :: rest) = '#' :: '(' :: upper rest := rfl
    have closes : (upper rest).getLast? = some ')' ↔ rest.getLast? = some ')' := by
      simp [upper, List.getLast?_map, toUpper_eq_iff]
    have inside : (upper rest).dropLast = upper rest.dropLast := List.map_dropLast.symm
    simp only [first, unwrap?, closes, inside, trim_upper]
    split <;> rfl
  · have raised : ¬∃ rest, upper token = '#' :: '(' :: rest := by
      rintro ⟨rest, same⟩
      simp only [upper, List.map_eq_cons_iff] at same
      obtain ⟨c, _, rfl, hash, d, rest, rfl, opening, -⟩ := same
      rw [toUpper_eq_iff rfl] at hash opening
      exact opens ⟨rest, by rw [hash, opening]⟩
    have closed {text : List Char} (other : ¬∃ rest, text = '#' :: '(' :: rest) :
        unwrap? text = none := by
      unfold unwrap?
      split
      · exact (other ⟨_, rfl⟩).elim
      · rfl
    rw [closed opens, closed raised]
    rfl

theorem Operand.read_upper (token : List Char) :
    read (upper token) = (read token).mapError DecodeError.upper := by
  rw [read, trim_upper, unwrap?_upper, read]
  cases unwrap? (trim token) with
  | some body =>
    dsimp only [Option.map_some]
    rw [mapError_bind, Expr.read_upper]
    rfl
  | none =>
    dsimp only [Option.map_none]
    rw [mapError_bind, Expr.read_upper]
    rfl

namespace Instruction

theorem assemble_upper (op : Opcode) (args : List (List Char)) :
    assemble op (args.map upper) = (assemble op args).mapError DecodeError.upper := by
  by_cases count : args.length = op.arity
  · cases op with
    | load =>
      obtain ⟨dst, src, rfl⟩ := List.length_eq_two.mp count
      simp only [List.map_cons, List.map_nil, assemble, mapError_bind, Register.read_upper,
        Operand.read_upper]
      rfl
    | store =>
      obtain ⟨value, address, rfl⟩ := List.length_eq_two.mp count
      simp only [List.map_cons, List.map_nil, assemble, mapError_bind, Operand.read_upper]
      rfl
    | pop =>
      obtain ⟨dst, rfl⟩ := List.length_eq_one_iff.mp count
      simp only [List.map_cons, List.map_nil, assemble, mapError_bind, Register.read_upper]
      rfl
    | unary op =>
      obtain ⟨o, rfl⟩ := List.length_eq_one_iff.mp count
      simp only [List.map_cons, List.map_nil, assemble, mapError_bind, Operand.read_upper]
      rfl
    | nullary op =>
      obtain rfl := List.length_eq_zero_iff.mp count
      rfl
  · rw [assemble_of_length count, assemble_of_length (by rwa [List.length_map]), List.length_map]
    rfl

theorem ofTokens_upper (ts : List (List Char)) :
    ofTokens (ts.map upper) = (ofTokens ts).mapError DecodeError.upper := by
  cases ts with
  | nil => rfl
  | cons name args =>
    have mark : (upper name).head? = some '@' ↔ name.head? = some '@' := by
      cases name with
      | nil => rfl
      | cons c name => simp [upper, toUpper_eq_iff]
    rw [List.map_cons, ofTokens, ofTokens, Opcode.find?_upper]
    simp only [mark]
    split
    · rfl
    · cases Opcode.find? name with
      | none => simp [Except.mapError, DecodeError.upper]
      | some op =>
        dsimp only
        rw [assemble_upper, mapError_bind]
        rfl

theorem decode_upper (line : String) :
    decode (String.ofList (upper line.toList)) = (decode line).mapError DecodeError.upper := by
  rw [decode, decode, String.toList_ofList, tokens_upper, ofTokens_upper]

end Instruction

def Text.SameLetters (text other : String) : Prop :=
  upper text.toList = upper other.toList

instance (text other : String) : Decidable (SameLetters text other) :=
  inferInstanceAs (Decidable (_ = _))

/-- The errors are of one kind, and what they quote differs in the case of ASCII letters at most. -/
inductive DecodeError.SameLetters : DecodeError → DecodeError → Prop where
  | unknownOpcode {text other : String} (same : Text.SameLetters text other) :
      SameLetters (.unknownOpcode text) (.unknownOpcode other)
  | operandCount (op : Opcode) (found : Nat) :
      SameLetters (.operandCount op found) (.operandCount op found)
  | unknownRegister {text other : String} (same : Text.SameLetters text other) :
      SameLetters (.unknownRegister text) (.unknownRegister other)
  | invalidNumber {text other : String} (same : Text.SameLetters text other) :
      SameLetters (.invalidNumber text) (.invalidNumber other)
  | malformedExpression {text other : String} (same : Text.SameLetters text other) :
      SameLetters (.malformedExpression text) (.malformedExpression other)

theorem DecodeError.sameLetters_of_upper {e e' : DecodeError} (same : e.upper = e'.upper) :
    e.SameLetters e' := by
  cases e <;> cases e' <;> injection same
  case unknownOpcode same => exact .unknownOpcode (String.ofList_injective same)
  case operandCount =>
    subst_vars
    exact .operandCount _ _
  case unknownRegister same => exact .unknownRegister (String.ofList_injective same)
  case invalidNumber same => exact .invalidNumber (String.ofList_injective same)
  case malformedExpression same => exact .malformedExpression (String.ofList_injective same)

namespace Instruction

theorem decode_of_sameLetters {line other : String} (same : SameLetters line other) :
    (∃ i, decode line = .ok i ∧ decode other = .ok i) ∨
      ∃ e e', decode line = .error e ∧ decode other = .error e' ∧ e.SameLetters e' := by
  have raised : (decode line).mapError DecodeError.upper =
      (decode other).mapError DecodeError.upper := by
    rw [← decode_upper, same, decode_upper]
  cases first : decode line with
  | ok i =>
    cases second : decode other <;> rw [first, second] at raised <;> cases raised
    exact .inl ⟨i, rfl, rfl⟩
  | error e =>
    cases second : decode other with
    | ok i =>
      rw [first, second] at raised
      cases raised
    | error e' =>
      rw [first, second] at raised
      injection raised with same
      exact .inr ⟨e, e', rfl, rfl, DecodeError.sameLetters_of_upper same⟩

/-- Decoding sees the tokens of a line however they are laid out, and each line is laid out from one list
of tokens; in the tokens it does not see the case of letters. -/
theorem decode_sees_tokens_without_case :
    (∀ (ts : List (List Char)) (line : String), (∀ t ∈ ts, IsToken t) → Laid ts line.toList →
      decode line = decode (String.ofList (joined ts))) ∧
    (∀ line : String, ∃! ts : List (List Char), (∀ t ∈ ts, IsToken t) ∧ Laid ts line.toList) ∧
    ∀ line other : String, SameLetters line other →
      (∃ i, decode line = .ok i ∧ decode other = .ok i) ∨
        ∃ e e', decode line = .error e ∧ decode other = .error e' ∧ e.SameLetters e' := by
  refine ⟨fun ts line proper laid => ?_, fun line => ?_, fun line other => decode_of_sameLetters⟩
  · rw [decode, laid.tokens_eq proper, decode, String.toList_ofList,
      (laid_joined ts).tokens_eq proper]
  · obtain ⟨ts, proper, laid⟩ := exists_laid line.toList
    refine ⟨ts, ⟨proper, laid⟩, fun other found => ?_⟩
    rw [← laid.tokens_eq proper, found.2.tokens_eq found.1]

def looseLoad : String := ",LOAD\tA ,, 7 ;x"

theorem laid_looseLoad :
    Laid [['L', 'O', 'A', 'D'], ['A'], ['7']] looseLoad.toList := by
  have before : IsGap [','] := by decide
  have after : IsGap [' '] := by decide
  have between : ∀ link ∈ [(['\t'], ['A']), ([' ', ',', ',', ' '], ['7'])],
      link.1 ≠ [] ∧ IsGap link.1 := by
    decide
  exact .tokens before between after (.inr ⟨['x'], rfl⟩)

theorem decode_sees_tokens_without_case_on_loose_load :
    decode looseLoad = decode "LOAD A 7" ∧ SameLetters "jmp #(xy+1)" "JMP #(Xy+1)" ∧
      ((∃ i, decode "jmp #(xy+1)" = .ok i ∧ decode "JMP #(Xy+1)" = .ok i) ∨
        ∃ e e', decode "jmp #(xy+1)" = .error e ∧ decode "JMP #(Xy+1)" = .error e' ∧
          e.SameLetters e') := by
  have proper : ∀ t ∈ [['L', 'O', 'A', 'D'], ['A'], ['7']], IsToken t := by decide
  have single : String.ofList (joined [['L', 'O', 'A', 'D'], ['A'], ['7']]) = "LOAD A 7" := by decide
  have same : SameLetters "jmp #(xy+1)" "JMP #(Xy+1)" := by decide
  rw [← single]
  exact ⟨decode_sees_tokens_without_case.1 _ looseLoad proper laid_looseLoad, same,
    decode_sees_tokens_without_case.2.2 _ _ same⟩

end Instruction

end RegisterMachine
