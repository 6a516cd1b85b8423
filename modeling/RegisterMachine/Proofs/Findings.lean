import Mathlib.Data.List.Sort
import RegisterMachine.Proofs.StaticCheck

/-! What the check of a program reports: the lines that do not decode and the literal jumps that lead
out of the program, one finding for each such line and none for any other, in the order of the lines.
For a program without a finding it gives the number of instructions. -/

namespace RegisterMachine

/-- The instruction is a jump, a conditional jump or a call, and its operand is this literal alone,
wrapped or not. -/
def Instruction.JumpsTo (i : Instruction) (target : Word) : Prop :=
  ∃ op wrapped, (op = .jmp ∨ op = .jpc ∨ op = .call) ∧
    i = .unary op ⟨⟨.literal target, []⟩, wrapped⟩

theorem Expr.literal?_eq_some_iff {e : Expr} {w : Word} :
    e.literal? = some w ↔ e = ⟨.literal w, []⟩ := by
  obtain ⟨head, tail⟩ := e
  cases head with
  | register r => simp [literal?]
  | literal v => cases tail <;> simp [literal?]

theorem Instruction.jumpsTo_iff {i : Instruction} {target : Word} :
    i.JumpsTo target ↔ ∃ o, i.jumpTarget? = some o ∧ o.expr.literal? = some target := by
  constructor
  · rintro ⟨op, wrapped, rfl | rfl | rfl, rfl⟩
    all_goals exact ⟨_, rfl, rfl⟩
  · rintro ⟨⟨expr, wrapped⟩, operand, single⟩
    obtain rfl := Expr.literal?_eq_some_iff.mp single
    cases i with
    | unary op o =>
      cases op with
      | jmp => cases operand; exact ⟨.jmp, wrapped, by simp, rfl⟩
      | jpc => cases operand; exact ⟨.jpc, wrapped, by simp, rfl⟩
      | call => cases operand; exact ⟨.call, wrapped, by simp, rfl⟩
      | _ => cases operand
    | _ => cases operand

namespace Program

variable {p : Program} {f : Finding}

inductive Faulty (p : Program) : Finding → Prop where
  | undecodable {n : Nat} {error : DecodeError} (found : p.decoded? n = some (.error error)) :
      Faulty p ⟨n, .undecodable error⟩
  | jumpOutside {n : Nat} {i : Instruction} {target : Word}
      (found : p.decoded? n = some (.ok (some i))) (jumps : i.JumpsTo target)
      (outside : ¬p.HasLine target) : Faulty p ⟨n, .jumpOutside target p.size⟩

structure Sound (p : Program) : Prop where
  decodes : ∀ n, 1 ≤ n → n ≤ p.size → ∃ i?, p.decoded? n = some (.ok i?)
  lands : ∀ n i target, p.decoded? n = some (.ok (some i)) → i.JumpsTo target → p.HasLine target

theorem sound_iff : p.Sound ↔ ∀ f, ¬p.Faulty f := by
  constructor
  · rintro ⟨decodes, lands⟩ f faulty
    cases faulty with
    | undecodable found =>
      obtain ⟨low, high⟩ := bounds_of_decoded? found
      obtain ⟨i?, decoded⟩ := decodes _ low high
      rw [found] at decoded
      cases decoded
    | jumpOutside found jumps outside => exact outside (lands _ _ _ found jumps)
  · intro clean
    refine ⟨fun n low high => ?_, fun n i target found jumps => ?_⟩
    · cases decoded : p.decoded? n with
      | none =>
        rw [decoded?_eq_none_iff] at decoded
        omega
      | some line =>
        cases line with
        | error error => exact (clean _ (.undecodable decoded)).elim
        | ok i? => exact ⟨i?, rfl⟩
    · exact Classical.not_not.mp fun outside => clean _ (.jumpOutside found jumps outside)

theorem mem_findings_iff_faulty : f ∈ p.findings ↔ p.Faulty f := by
  rw [← reports_iff, reports_iff_decoded?]
  obtain ⟨n, defect⟩ := f
  constructor
  · rintro (⟨error, found, rfl⟩ | ⟨i, found, defective⟩)
    · exact .undecodable found
    · obtain ⟨o, target, operand, single, outside, rfl⟩ := jumpDefect?_eq_some_iff.mp defective
      exact .jumpOutside found (Instruction.jumpsTo_iff.mpr ⟨o, operand, single⟩)
        (target?_eq_none_iff.mp outside)
  · intro faulty
    cases faulty with
    | undecodable found => exact .inl ⟨_, found, rfl⟩
    | jumpOutside found jumps outside =>
      obtain ⟨o, operand, single⟩ := Instruction.jumpsTo_iff.mp jumps
      refine .inr ⟨_, found, jumpDefect?_eq_some_iff.mpr ⟨o, _, operand, single, ?_, rfl⟩⟩
      exact target?_eq_none_iff.mpr outside

theorem pairwise_findings (p : Program) : p.findings.Pairwise (·.line < ·.line) := by
  have numbers : (p.lines.toList.zipIdx 1).Pairwise (·.2 < ·.2) := by
    apply List.pairwise_map.mp
    rw [List.zipIdx_map_snd]
    exact List.pairwise_lt_range'
  refine numbers.filterMap _ ?_
  rintro ⟨line, n⟩ ⟨line', n'⟩ before f found f' found'
  obtain ⟨defect, -, rfl⟩ := Option.map_eq_some_iff.mp found
  obtain ⟨defect', -, rfl⟩ := Option.map_eq_some_iff.mp found'
  exact before

theorem eq_of_ordered {l l' : List Finding} (ordered : l.Pairwise (·.line < ·.line))
    (also : l'.Pairwise (·.line < ·.line)) (same : ∀ f, f ∈ l ↔ f ∈ l') : l = l' := by
  have irrefl : Std.Irrefl fun f g : Finding => f.line < g.line := ⟨fun f => Nat.lt_irrefl f.line⟩
  have antisymm : Std.Antisymm fun f g : Finding => f.line < g.line :=
    ⟨fun f g before after => (Nat.lt_asymm before after).elim⟩
  exact ordered.eq_of_mem_iff also same

theorem map_line? (p : Program) :
    (List.range' 1 p.size).map p.line? = p.lines.toList.map some := by
  refine List.ext_getElem (by simp [size]) fun k low high => ?_
  simp [line?]

theorem instructionCount_eq (p : Program) :
    p.instructionCount = (List.range' 1 p.size).countP p.isInstruction := by
  let holds (line? : Option String) : Bool :=
    (line?.map Instruction.decode).any Instruction.isPresent
  calc
    p.instructionCount = (p.lines.toList.map some).countP holds := by
      rw [List.countP_map]
      rfl
    _ = ((List.range' 1 p.size).map p.line?).countP holds := by rw [map_line?]
    _ = (List.range' 1 p.size).countP p.isInstruction := by
      rw [List.countP_map]
      rfl

theorem findings_eq_nil_iff : p.findings = [] ↔ p.Sound := by
  simp only [List.eq_nil_iff_forall_not_mem, mem_findings_iff_faulty, sound_iff]

/-- The check passes exactly the programs in which every line decodes and every literal jump leads to
a line of the program, and counts the lines that hold an instruction. Of any other program it lists
what there is to report, all of it and nothing else, at most once for each line and from the first
line on. -/
theorem check_reports_exactly_faults (p : Program) :
    (∀ count, p.check = .ok count ↔
      p.Sound ∧ count = (List.range' 1 p.size).countP p.isInstruction) ∧
    (∀ n, p.isInstruction n = true ↔ ∃ i, p.decoded? n = some (.ok (some i))) ∧
    ∀ findings, p.check = .error findings ↔
      ¬p.Sound ∧ findings.Pairwise (·.line < ·.line) ∧ ∀ f, f ∈ findings ↔ p.Faulty f := by
  rw [← findings_eq_nil_iff, ← instructionCount_eq, check]
  refine ⟨?_, fun n => isInstruction_iff, ?_⟩
  · intro count
    cases p.findings with
    | nil => simp [eq_comm]
    | cons first rest => simp
  · intro findings
    have members (f : Finding) : f ∈ p.findings ↔ p.Faulty f := mem_findings_iff_faulty
    have ordered := p.pairwise_findings
    cases found : p.findings with
    | nil => simp
    | cons first rest =>
      rw [found] at members ordered
      simp only [Except.error.injEq, List.cons_ne_nil, not_false_iff, true_and]
      constructor
      · rintro rfl
        exact ⟨ordered, members⟩
      · rintro ⟨also, same⟩
        exact eq_of_ordered ordered also fun f => (members f).trans (same f).symm

end Program

end RegisterMachine
