import RegisterMachine.Proofs.Dumps
import RegisterMachine.Proofs.Findings
import RegisterMachine.Proofs.Grammar
import RegisterMachine.Proofs.Printing

/-! The lines that findings are told in. An error quotes a piece of one token, and no token has a blank
in it; so a finding takes one line, and the lines can be counted. -/

namespace RegisterMachine

open Text

def DecodeError.quotation : DecodeError → List Char
  | .operandCount _ _ => []
  | .unknownOpcode token | .unknownRegister token | .invalidNumber token
  | .malformedExpression token => token.toList

section Quotations

variable {token body piece : List Char} {e : DecodeError}

theorem Register.quotation_of_read (failed : Register.read token = .error e) :
    e.quotation = token := by
  unfold Register.read at failed
  split at failed
  · cases failed
  · cases failed
    exact String.toList_ofList

theorem Term.quotation_of_read (failed : Term.read piece = .error e) : e.quotation = piece := by
  unfold Term.read at failed
  split at failed
  · cases failed
  · split at failed
    · cases failed
    · split at failed <;> cases failed <;> exact String.toList_ofList

theorem Expr.first_subset (body : List Char) : (cut Sign.ofChar? body).1 ⊆ body := by
  intro c mem
  rw [← join_cut body]
  exact List.mem_append_left _ mem

theorem Expr.piece_subset {link : Sign × List Char} (mem : link ∈ (cut Sign.ofChar? body).2) :
    link.2 ⊆ body := by
  intro c inside
  rw [← join_cut body]
  exact List.mem_append_right _ (List.mem_flatMap.mpr ⟨link, mem, List.mem_cons_of_mem _ inside⟩)

theorem Expr.quotation_subset (inside : body ⊆ token) (failed : Expr.read token body = .error e) :
    e.quotation ⊆ token := by
  have first : trim (cut Sign.ofChar? body).1 ⊆ token :=
    fun c mem => inside (first_subset body (mem_of_mem_trim mem))
  have others : ∀ link ∈ (cut Sign.ofChar? body).2, trim link.2 ⊆ token :=
    fun link from_cut c mem => inside (piece_subset from_cut (mem_of_mem_trim mem))
  rw [Expr.read] at failed
  split at failed
  · cases failed
  · generalize cut Sign.ofChar? body = pieces at first others failed
    dsimp only at failed
    split at failed
    · cases failed
      rw [DecodeError.quotation, String.toList_ofList]
      exact List.Subset.refl token
    · obtain head | ⟨head, -, failed⟩ := error_of_bind failed
      · rw [Term.quotation_of_read head]
        exact first
      · obtain tail | ⟨tail, -, failed⟩ := error_of_bind failed
        · obtain ⟨link, mem, failed⟩ := error_of_mapM tail
          obtain ⟨part, from_cut, rfl⟩ := List.mem_map.mp mem
          obtain term | ⟨t, -, failed⟩ := error_of_bind failed
          · rw [Term.quotation_of_read term]
            exact others part from_cut
          · cases failed
        · cases failed

theorem Operand.unwrap?_subset (found : unwrap? token = some body) : body ⊆ token := by
  unfold unwrap? at found
  split at found
  · rename_i rest
    split at found
    · cases found
      intro c mem
      have inside := (List.dropLast_sublist rest).mem (mem_of_mem_trim mem)
      exact List.mem_cons_of_mem _ (List.mem_cons_of_mem _ inside)
    · cases found
  · cases found

theorem Operand.quotation_subset (failed : Operand.read token = .error e) :
    e.quotation ⊆ token := by
  have trimmed : trim token ⊆ token := fun c mem => mem_of_mem_trim mem
  refine List.Subset.trans ?_ trimmed
  rw [Operand.read] at failed
  split at failed
  · rename_i body wrapped
    obtain failed | ⟨expr, -, failed⟩ := error_of_bind failed
    · exact Expr.quotation_subset (unwrap?_subset wrapped) failed
    · cases failed
  · obtain failed | ⟨expr, -, failed⟩ := error_of_bind failed
    · exact Expr.quotation_subset (List.Subset.refl _) failed
    · cases failed

namespace Instruction

variable {args : List (List Char)}

theorem quotation_of_register (mem : token ∈ args)
    (failed : Register.read token = .error e) : e.quotation ⊆ args.flatten := by
  rw [Register.quotation_of_read failed]
  exact fun c inside => List.mem_flatten.mpr ⟨token, mem, inside⟩

theorem quotation_of_operand (mem : token ∈ args)
    (failed : Operand.read token = .error e) : e.quotation ⊆ args.flatten :=
  fun _ quoted => List.mem_flatten.mpr ⟨token, mem, Operand.quotation_subset failed quoted⟩

theorem quotation_of_assemble {op : Opcode} (failed : assemble op args = .error e) :
    e.quotation ⊆ args.flatten := by
  unfold assemble at failed
  split at failed
  · obtain dst | ⟨r, -, failed⟩ := error_of_bind failed
    · exact quotation_of_register (by simp) dst
    · obtain src | ⟨o, -, failed⟩ := error_of_bind failed
      · exact quotation_of_operand (by simp) src
      · cases failed
  · obtain value | ⟨v, -, failed⟩ := error_of_bind failed
    · exact quotation_of_operand (by simp) value
    · obtain address | ⟨a, -, failed⟩ := error_of_bind failed
      · exact quotation_of_operand (by simp) address
      · cases failed
  · obtain dst | ⟨r, -, failed⟩ := error_of_bind failed
    · exact quotation_of_register (by simp) dst
    · cases failed
  · obtain operand | ⟨o, -, failed⟩ := error_of_bind failed
    · exact quotation_of_operand (by simp) operand
    · cases failed
  · cases failed
  · cases failed
    exact List.nil_subset _

theorem quotation_of_ofTokens (failed : ofTokens args = .error e) : e.quotation ⊆ args.flatten := by
  cases args with
  | nil => cases failed
  | cons name args =>
    rw [ofTokens] at failed
    split at failed
    · cases failed
    · split at failed
      · cases failed
        rw [DecodeError.quotation, String.toList_ofList]
        simp
      · obtain failed | ⟨i, -, failed⟩ := error_of_bind failed
        · rw [List.flatten_cons]
          exact fun c mem => List.mem_append_right _ (quotation_of_assemble failed mem)
        · cases failed

theorem quotation_of_decode {line : String} (failed : decode line = .error e) :
    ∀ c ∈ e.quotation, isSeparator c = false := by
  intro c mem
  obtain ⟨token, found, inside⟩ := List.mem_flatten.mp (quotation_of_ofTokens failed mem)
  exact plain_of_pieces (List.mem_of_mem_filter found) c inside

end Instruction

end Quotations

/-- The text has nothing in it that belongs to the end of a line. -/
def OneLine (text : String) : Prop :=
  text.toList.all (fun c => c != '\n' && c != '\r') = true

namespace OneLine

variable {s t : String}

theorem append (first : OneLine s) (second : OneLine t) : OneLine (s ++ t) := by
  rw [OneLine, String.toList_append, List.all_append, first, second]
  rfl

theorem of_forall {p : Char → Bool} (within : ∀ c ∈ s.toList, p c = true)
    (feed : p '\n' = false) (ret : p '\r' = false) : OneLine s := by
  refine List.all_eq_true.mpr fun c mem => ?_
  have inside := within c mem
  rw [Bool.and_eq_true, bne_iff_ne, bne_iff_ne]
  constructor
  · rintro rfl
    rw [feed] at inside
    cases inside
  · rintro rfl
    rw [ret] at inside
    cases inside

theorem nat (n : Nat) : OneLine (toString n) :=
  of_forall (isNumeric_ofNat n) rfl rfl

theorem word (w : Word) : OneLine w.text :=
  of_forall w.isNumeric_text rfl rfl

theorem mnemonic (op : Opcode) : OneLine op.mnemonic :=
  of_forall op.isSolid_mnemonic rfl rfl

theorem newline_notMem (single : OneLine s) : '\n' ∉ s.toList := by
  intro mem
  have differs := List.all_eq_true.mp single _ mem
  cases differs

theorem getLast?_ne (single : OneLine s) : s.toList.getLast? ≠ some '\r' := by
  intro last
  have differs := List.all_eq_true.mp single _ (List.mem_of_getLast? last)
  cases differs

end OneLine

theorem DecodeError.oneLine_message {e : DecodeError}
    (solid : ∀ c ∈ e.quotation, Instruction.isSeparator c = false) : OneLine e.message := by
  have quoted {token : String} (same : e.quotation = token.toList) : OneLine token := by
    refine OneLine.of_forall (p := fun c => !Instruction.isSeparator c) (fun c mem => ?_) rfl rfl
    rw [← same] at mem
    rw [solid c mem]
    rfl
  cases e with
  | operandCount op found =>
    have expected := ((OneLine.mnemonic op).append (t := " expects ") rfl).append (.nat op.arity)
    exact (expected.append (by rfl)).append (.nat found)
  | unknownOpcode token => exact (OneLine.append (by rfl) (quoted rfl)).append (by rfl)
  | unknownRegister token => exact (OneLine.append (by rfl) (quoted rfl)).append (by rfl)
  | invalidNumber token => exact (OneLine.append (by rfl) (quoted rfl)).append (by rfl)
  | malformedExpression token => exact (OneLine.append (by rfl) (quoted rfl)).append (by rfl)

namespace Program

variable {p : Program} {f : Finding}

theorem oneLine_message (found : f ∈ p.findings) : OneLine f.message := by
  rw [mem_findings_iff_faulty] at found
  cases found with
  | @undecodable n e found =>
    rw [decoded?, Option.map_eq_some_iff] at found
    obtain ⟨line, -, failed⟩ := found
    have told := DecodeError.oneLine_message (Instruction.quotation_of_decode failed)
    exact ((OneLine.append (by rfl) (.nat n)).append (by rfl)).append told
  | @jumpOutside n i target found jumps outside =>
    have place : OneLine ("line " ++ toString n ++ ": jump target " ++ target.text) :=
      ((OneLine.append (by rfl) (.nat n)).append (by rfl)).append (.word target)
    exact ((place.append (by rfl)).append (.nat p.size)).append (by rfl)

theorem lines_of_findings (p : Program) (label : String) (plain : OneLine label) :
    Text.lines (String.join (p.findings.map fun f => label ++ f.message ++ "\n")).toList =
      p.findings.map fun f => (label ++ f.message).toList := by
  have rows : (String.join (p.findings.map fun f => label ++ f.message ++ "\n")).toList =
      (p.findings.map fun f => (label ++ f.message).toList).flatMap (· ++ ['\n']) := by
    rw [String.toList_join, List.flatMap_map, List.flatMap_map]
    exact List.flatMap_congr fun f _ => String.toList_append
  rw [rows]
  refine lines_of_rows fun row mem => ?_
  obtain ⟨f, found, rfl⟩ := List.mem_map.mp mem
  have single := plain.append (oneLine_message found)
  exact ⟨single.newline_notMem, single.getLast?_ne⟩

end Program

end RegisterMachine
