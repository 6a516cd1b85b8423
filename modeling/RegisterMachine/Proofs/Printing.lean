import RegisterMachine.Proofs.Operands

/-! Decoding what is printed. The text of an instruction comes apart into its mnemonic and its
operands, and it decodes to that instruction exactly if every operand is canonical. -/

namespace RegisterMachine

open Instruction

namespace Register

theorem isSolid_name (r : Register) : ∀ c ∈ r.name.toList, isSolid c = true := by
  rw [← List.all_eq_true]
  cases r <;> rfl

theorem name_ne_nil (r : Register) : r.name.toList ≠ [] := by
  cases r <;> decide

theorem read_name (r : Register) : Register.read r.name.toList = .ok r := by
  cases r <;> rfl

end Register

namespace Opcode

theorem mem_all (op : Opcode) : op ∈ all := by
  cases op with
  | unary op => cases op <;> decide
  | nullary op =>
    cases op with
    | arith op => cases op <;> decide
    | cmp op => cases op <;> decide
    | _ => decide
  | _ => decide

theorem isSolid_mnemonic (op : Opcode) : ∀ c ∈ op.mnemonic.toList, isSolid c = true := by
  have each : ∀ op ∈ all, op.mnemonic.toList.all isSolid = true := by decide
  exact List.all_eq_true.mp (each op op.mem_all)

theorem mnemonic_ne_nil (op : Opcode) : op.mnemonic.toList ≠ [] := by
  have each : ∀ op ∈ all, op.mnemonic.toList ≠ [] := by decide
  exact each op op.mem_all

theorem ofTokens_mnemonic (op : Opcode) (args : List (List Char)) :
    ofTokens (op.mnemonic.toList :: args) = (do return some (← assemble op args)) := by
  have each : ∀ op ∈ all, op.mnemonic.toList.head? ≠ some '@' ∧
      find? op.mnemonic.toList = some op := by decide
  obtain ⟨unmarked, found⟩ := each op op.mem_all
  rw [ofTokens, if_neg unmarked, found]

end Opcode

namespace Instruction

theorem isCanonical_of_assemble {op : Opcode} {args : List (List Char)} {i : Instruction}
    (found : assemble op args = .ok i) : ∀ o ∈ i.operands, o.isCanonical = true := by
  unfold assemble at found
  split at found
  · obtain ⟨r, -, found⟩ := ok_of_bind found
    obtain ⟨src, read, found⟩ := ok_of_bind found
    cases found
    simpa [operands] using Operand.isCanonical_of_read read
  · obtain ⟨value, first, found⟩ := ok_of_bind found
    obtain ⟨address, second, found⟩ := ok_of_bind found
    cases found
    simpa [operands] using
      ⟨Operand.isCanonical_of_read first, Operand.isCanonical_of_read second⟩
  · obtain ⟨r, -, found⟩ := ok_of_bind found
    cases found
    simp [operands]
  · obtain ⟨o, read, found⟩ := ok_of_bind found
    cases found
    simpa [operands] using Operand.isCanonical_of_read read
  · cases found
    simp [operands]
  · cases found

theorem isCanonical_of_decode {line : String} {i : Instruction}
    (found : decode line = .ok (some i)) : ∀ o ∈ i.operands, o.isCanonical = true := by
  rw [decode] at found
  unfold ofTokens at found
  split at found
  · cases found
  · split at found
    · cases found
      simp [operands]
    · split at found
      · cases found
      · obtain ⟨j, assembled, found⟩ := ok_of_bind found
        cases found
        exact isCanonical_of_assemble assembled

def arguments : Instruction → List (List Char)
  | .load dst src => [dst.name.toList, src.text.toList]
  | .store value address => [value.text.toList, address.text.toList]
  | .pop dst => [dst.name.toList]
  | .unary _ o => [o.text.toList]
  | .nullary _ => []

theorem tokens_mnemonic (op : Opcode) (rest : List Char) :
    tokens (op.mnemonic.toList ++ ' ' :: rest) = op.mnemonic.toList :: tokens rest :=
  tokens_append op.isSolid_mnemonic op.mnemonic_ne_nil rfl rest

theorem tokens_operand (o : Operand) : tokens o.text.toList = [o.text.toList] :=
  tokens_token o.isSolid_text o.text_ne_nil

theorem tokens_pair {token : List Char} (solid : ∀ c ∈ token, isSolid c = true)
    (nonempty : token ≠ []) (o : Operand) :
    tokens (token ++ ',' :: ' ' :: o.text.toList) = [token, o.text.toList] := by
  rw [tokens_append solid nonempty rfl, tokens_separator rfl, tokens_operand]

theorem tokens_text (i : Instruction) :
    tokens i.text.toList = i.opcode.mnemonic.toList :: i.arguments := by
  cases i with
  | load dst src =>
    have shape : (load dst src).text.toList =
        Opcode.load.mnemonic.toList ++ ' ' :: (dst.name.toList ++ ',' :: ' ' :: src.text.toList) := by
      simp [text, Opcode.mnemonic]
    rw [shape, tokens_mnemonic, tokens_pair dst.isSolid_name dst.name_ne_nil]
    rfl
  | store value address =>
    have shape : (store value address).text.toList =
        Opcode.store.mnemonic.toList ++
          ' ' :: (value.text.toList ++ ',' :: ' ' :: address.text.toList) := by
      simp [text, Opcode.mnemonic]
    rw [shape, tokens_mnemonic, tokens_pair value.isSolid_text value.text_ne_nil]
    rfl
  | pop dst =>
    have shape : (pop dst).text.toList = Opcode.pop.mnemonic.toList ++ ' ' :: dst.name.toList := by
      simp [text, Opcode.mnemonic]
    rw [shape, tokens_mnemonic, tokens_token dst.isSolid_name dst.name_ne_nil]
    rfl
  | unary op o =>
    have shape : (unary op o).text.toList =
        (Opcode.unary op).mnemonic.toList ++ ' ' :: o.text.toList := by
      simp [text, Opcode.mnemonic]
    rw [shape, tokens_mnemonic, tokens_operand]
    rfl
  | nullary op =>
    exact tokens_token (Opcode.nullary op).isSolid_mnemonic (Opcode.nullary op).mnemonic_ne_nil

theorem assemble_arguments (i : Instruction) :
    assemble i.opcode i.arguments =
      match i.operands.find? (!·.isCanonical) with
      | none => .ok i
      | some o => .error (.malformedExpression o.text) := by
  cases i with
  | load dst src =>
    simp only [opcode, arguments, assemble, operands, Register.read_name, Operand.read_text,
      List.find?_cons]
    cases src.isCanonical <;> rfl
  | store value address =>
    simp only [opcode, arguments, assemble, operands, Operand.read_text, List.find?_cons]
    cases value.isCanonical <;> cases address.isCanonical <;> rfl
  | pop dst =>
    simp only [opcode, arguments, assemble, operands, Register.read_name]
    rfl
  | unary op o =>
    simp only [opcode, arguments, assemble, operands, Operand.read_text, List.find?_cons]
    cases o.isCanonical <;> rfl
  | nullary op => rfl

theorem decode_text (i : Instruction) :
    decode i.text =
      match i.operands.find? (!·.isCanonical) with
      | none => .ok (some i)
      | some o => .error (.malformedExpression o.text) := by
  rw [decode, tokens_text, Opcode.ofTokens_mnemonic, assemble_arguments]
  cases i.operands.find? (!·.isCanonical) <;> rfl

theorem decode_text_iff (i : Instruction) :
    decode i.text = .ok (some i) ↔ ∀ o ∈ i.operands, o.isCanonical = true := by
  rw [decode_text]
  cases fault : i.operands.find? (!·.isCanonical) with
  | none =>
    have none_at_fault := List.find?_eq_none.mp fault
    simpa using none_at_fault
  | some o =>
    have at_fault := List.find?_some fault
    have mem := List.mem_of_find?_eq_some fault
    simp only [reduceCtorEq, false_iff]
    intro canonical
    rw [canonical o mem] at at_fault
    cases at_fault

/-- Decoding gives only canonical operands, and takes the text of an instruction back to it exactly
if its operands are canonical; otherwise the first that is not is refused by its own text. So every
line that decodes to an instruction can be replaced by the text of that instruction. -/
theorem reads_back_iff_canonical :
    (∀ line i, decode line = .ok (some i) → ∀ o ∈ i.operands, o.isCanonical = true) ∧
    (∀ token o, Operand.read token = .ok o → o.isCanonical = true) ∧
    (∀ i : Instruction,
      decode i.text = .ok (some i) ↔ ∀ o ∈ i.operands, o.isCanonical = true) ∧
    (∀ i : Instruction, ∀ o, i.operands.find? (!·.isCanonical) = some o →
      decode i.text = .error (.malformedExpression o.text)) ∧
    ∀ line i, decode line = .ok (some i) → decode i.text = .ok (some i) := by
  refine ⟨fun line i => isCanonical_of_decode, fun token o => Operand.isCanonical_of_read,
    decode_text_iff, ?_, ?_⟩
  · intro i o fault
    rw [decode_text, fault]
  · intro line i found
    exact (decode_text_iff i).mpr (isCanonical_of_decode found)

theorem reads_back_iff_canonical_at_lowest_literal :
    let lowest : Operand := ⟨⟨.literal (-2147483648), []⟩, true⟩
    let below (w : Word) : Operand := ⟨⟨.register .fp, [(.minus, .literal w)]⟩, false⟩
    decode "store #(-2147483648),fp-4 ; x" = .ok (some (.store lowest (below 4))) ∧
    decode (store lowest (below 4)).text = .ok (some (.store lowest (below 4))) ∧
    decode (store lowest (below (-4))).text =
      .error (.malformedExpression (below (-4)).text) := by
  intro lowest below
  have line : decode "store #(-2147483648),fp-4 ; x" = .ok (some (.store lowest (below 4))) := rfl
  have fault : (store lowest (below (-4))).operands.find? (!·.isCanonical) =
      some (below (-4)) := rfl
  exact ⟨line, reads_back_iff_canonical.2.2.2.2 _ _ line,
    reads_back_iff_canonical.2.2.2.1 _ _ fault⟩

end Instruction

end RegisterMachine
