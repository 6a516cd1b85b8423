import RegisterMachine.Program.Check
import RegisterMachine.Proofs.Turns

/-! The check of a program against its runs. A finding on a line and a failure on that line tell the
same: the check decides a literal jump from the text of its operand, the machine any jump from the
value that its operand has. -/

namespace RegisterMachine

theorem Expr.eval_of_literal? {e : Expr} {w : Word} (single : e.literal? = some w) (bank : Bank) :
    e.eval bank = w := by
  obtain ⟨head, tail⟩ := e
  cases head with
  | register r => cases single
  | literal v =>
    cases tail with
    | nil => cases single; rfl
    | cons first rest => cases single

/-- Whether the instruction goes to the line its operand names, with these values in the registers.
A conditional jump is taken when the condition is false. -/
def Instruction.takesJump (bank : Bank) : Instruction → Bool
  | .unary .jmp _ => true
  | .unary .jpc _ => bank.c == 0
  | .unary .call _ => true
  | _ => false

namespace Program

variable {p : Program} {n : Nat} {error : DecodeError} {target : Word}

def Reports (p : Program) (f : Finding) : Prop :=
  ∃ findings, p.check = .error findings ∧ f ∈ findings

theorem mem_findings_iff {f : Finding} :
    f ∈ p.findings ↔ ∃ line, p.line? f.line = some line ∧ p.defect? line = some f.defect := by
  obtain ⟨n, defect⟩ := f
  have numbered (line : String) :
      (line, n) ∈ p.lines.toList.zipIdx 1 ↔ p.line? n = some line := by
    rw [List.mk_mem_zipIdx_iff_le_and_getElem?_sub, line?]
    by_cases zero : n = 0
    · simp [zero]
    · simp [zero, Nat.one_le_iff_ne_zero]
  simp only [findings, List.mem_filterMap, Option.map_eq_some_iff, Prod.exists, Finding.mk.injEq]
  constructor
  · rintro ⟨line, k, mem, defect, found, rfl, rfl⟩
    exact ⟨line, (numbered line).mp mem, found⟩
  · rintro ⟨line, here, found⟩
    exact ⟨line, n, (numbered line).mpr here, defect, found, rfl, rfl⟩

theorem reports_iff {f : Finding} : p.Reports f ↔ f ∈ p.findings := by
  rw [Reports, check]
  cases p.findings <;> simp

theorem not_reports_of_check {count : Nat} (passes : p.check = .ok count) (f : Finding) :
    ¬p.Reports f := by
  rintro ⟨findings, refused, -⟩
  rw [passes] at refused
  cases refused

theorem reports_iff_decoded? {f : Finding} :
    p.Reports f ↔
      (∃ error, p.decoded? f.line = some (.error error) ∧ f.defect = .undecodable error) ∨
        ∃ i, p.decoded? f.line = some (.ok (some i)) ∧ p.jumpDefect? i = some f.defect := by
  simp only [reports_iff, mem_findings_iff, decoded?, Option.map_eq_some_iff, defect?]
  constructor
  · rintro ⟨line, found, defect⟩
    cases decoded : Instruction.decode line with
    | error error =>
      rw [decoded] at defect
      exact .inl ⟨error, ⟨line, found, decoded⟩, (Option.some.inj defect).symm⟩
    | ok i =>
      cases i with
      | none => rw [decoded] at defect; cases defect
      | some i =>
        rw [decoded] at defect
        exact .inr ⟨i, ⟨line, found, decoded⟩, defect⟩
  · rintro (⟨error, ⟨line, found, decoded⟩, defect⟩ | ⟨i, ⟨line, found, decoded⟩, defect⟩)
    · exact ⟨line, found, by rw [decoded, defect]⟩
    · exact ⟨line, found, by rw [decoded]; exact defect⟩

theorem jumpDefect?_eq_some_iff {i : Instruction} {defect : Defect} :
    p.jumpDefect? i = some defect ↔
      ∃ o target, i.jumpTarget? = some o ∧ o.expr.literal? = some target ∧
        p.target? target = none ∧ defect = .jumpOutside target p.size := by
  simp only [jumpDefect?, bind, Option.bind_eq_some_iff]
  refine exists_congr fun o => ?_
  constructor
  · rintro ⟨operand, target, single, outside⟩
    cases inside : p.target? target with
    | some line => rw [inside] at outside; cases outside
    | none =>
      rw [inside] at outside
      cases outside
      exact ⟨target, operand, single, inside, rfl⟩
  · rintro ⟨target, operand, single, outside, rfl⟩
    exact ⟨operand, target, single, by rw [outside]⟩

theorem reports_undecodable_iff :
    p.Reports ⟨n, .undecodable error⟩ ↔ p.decoded? n = some (.error error) := by
  rw [reports_iff_decoded?]
  constructor
  · rintro (⟨error, found, defect⟩ | ⟨i, found, defect⟩)
    · cases defect
      exact found
    · obtain ⟨_, _, _, _, _, other⟩ := jumpDefect?_eq_some_iff.mp defect
      cases other
  · intro found
    exact .inl ⟨error, found, rfl⟩

theorem reports_jumpOutside_iff {size : Nat} :
    p.Reports ⟨n, .jumpOutside target size⟩ ↔
      size = p.size ∧ p.target? target = none ∧
        ∃ i o, p.decoded? n = some (.ok (some i)) ∧ i.jumpTarget? = some o ∧
          o.expr.literal? = some target := by
  rw [reports_iff_decoded?]
  constructor
  · rintro (⟨error, found, defect⟩ | ⟨i, found, defect⟩)
    · cases defect
    · obtain ⟨o, target, operand, single, outside, same⟩ := jumpDefect?_eq_some_iff.mp defect
      cases same
      exact ⟨rfl, outside, i, o, found, operand, single⟩
  · rintro ⟨rfl, outside, i, o, found, operand, single⟩
    have defect : p.jumpDefect? i = some (.jumpOutside target p.size) :=
      jumpDefect?_eq_some_iff.mpr ⟨o, target, operand, single, outside, rfl⟩
    exact .inr ⟨i, found, defect⟩

end Program

namespace Machine

variable {m : Machine} {scene left : Scene} {i : Instruction} {o : Operand}
  {line n fuel : Nat} {clock : Clock} {s : State} {streams : Streams}

theorem perform_of_outside {store : Store} (taken : i.takesJump store.bank = true)
    (operand : i.jumpTarget? = some o)
    (outside : m.program.target? (o.expr.eval store.bank) = none) :
    m.perform line i store = .error (.jumpOutside (o.expr.eval store.bank)) store := by
  apply Action.Leads.eq_error
  cases i with
  | unary op other =>
    cases op with
    | jmp =>
      cases operand
      simp [perform, performUnary, outside]
    | jpc =>
      cases operand
      have zero : store.bank.c = 0 := by simpa [Instruction.takesJump] using taken
      simp [perform, performUnary, zero, outside]
    | call =>
      cases operand
      simp [perform, performUnary, outside]
    | push => cases operand
    | ret => cases operand
    | print => cases operand
  | load dst src => cases operand
  | store value address => cases operand
  | pop dst => cases operand
  | nullary op => cases operand

theorem turn_of_undecodable {error : DecodeError}
    (found : m.program.decoded? scene.state.pc = some (.error error)) :
    m.turn scene = .fails ⟨scene.state.pc, .undecodable error⟩ scene := by
  rw [turn_eq, found]

theorem turn_of_outside (found : m.program.decoded? scene.state.pc = some (.ok (some i)))
    (taken : i.takesJump scene.state.store.bank = true) (operand : i.jumpTarget? = some o)
    (outside : m.program.target? (o.expr.eval scene.state.store.bank) = none) :
    ∃ left, m.turn scene =
      .fails ⟨scene.state.pc, .jumpOutside (o.expr.eval scene.state.store.bank)⟩ left := by
  rw [turn_of_instruction found, carryOut, perform_of_outside taken operand outside]
  exact ⟨_, rfl⟩

theorem jpc_of_untaken {bank : Bank} (operand : i.jumpTarget? = some o)
    (untaken : i.takesJump bank = false) : i = .unary .jpc o ∧ bank.c ≠ 0 := by
  cases i with
  | unary op other =>
    cases op with
    | jpc =>
      cases operand
      have nonzero : bank.c ≠ 0 := by simpa [Instruction.takesJump] using untaken
      exact ⟨rfl, nonzero⟩
    | jmp => cases untaken
    | call => cases untaken
    | push => cases operand
    | ret => cases operand
    | print => cases operand
  | load dst src => cases operand
  | store value address => cases operand
  | pop dst => cases operand
  | nullary op => cases operand

theorem turn_of_untaken (found : m.program.decoded? scene.state.pc = some (.ok (some i)))
    (operand : i.jumpTarget? = some o) (untaken : i.takesJump scene.state.store.bank = false) :
    m.turn scene =
      .goes ⟨⟨scene.state.store, scene.state.pc + 1, scene.state.steps + 1⟩, scene.streams⟩ := by
  obtain ⟨rfl, nonzero⟩ := jpc_of_untaken operand untaken
  have performed : m.perform scene.state.pc (.unary .jpc o) scene.state.store =
      .ok .next scene.state.store := by
    apply Action.Leads.eq_ok
    simp [perform, performUnary, nonzero]
  rw [turn_of_instruction found, carryOut, performed]
  rfl

theorem decoded?_of_undecodable {error : DecodeError}
    (run : m.execute clock fuel s streams = some ⟨.error ⟨line, .undecodable error⟩, left⟩) :
    m.program.decoded? line = some (.error error) := by
  obtain ⟨-, ⟨budget, late⟩ | can⟩ := execute_fails run
  · cases late
  · cases can with
    | undecodable found => exact found
    | operation found performed =>
      have own := (perform_cause m _ _ _).of_error performed
      cases own

theorem decoded?_of_jumpOutside {target : Word}
    (run : m.execute clock fuel s streams = some ⟨.error ⟨line, .jumpOutside target⟩, left⟩) :
    m.program.target? target = none ∧
      ∃ i, m.program.decoded? line = some (.ok (some i)) ∧
        ((∃ o, i = .unary .ret o) ∨
          ∃ o, i.jumpTarget? = some o ∧ ∀ w, o.expr.literal? = some w → w = target) := by
  obtain ⟨-, ⟨budget, late⟩ | can⟩ := execute_fails run
  · cases late
  · cases can with
    | @operation _ i _ store _ found performed =>
      have own := (perform_cause m _ _ _).of_error performed
      obtain ⟨outside, ret | ⟨o, operand, value⟩⟩ := own
      · exact ⟨outside, i, found, .inl ret⟩
      · refine ⟨outside, i, found, .inr ⟨o, operand, ?_⟩⟩
        intro w single
        rw [← Expr.eval_of_literal? single store.bank, value]

theorem reports_of_undecodable {error : DecodeError}
    (run : m.execute clock fuel s streams = some ⟨.error ⟨line, .undecodable error⟩, left⟩) :
    m.program.Reports ⟨line, .undecodable error⟩ :=
  Program.reports_undecodable_iff.mpr (decoded?_of_undecodable run)

theorem reports_of_jumpOutside {target w : Word}
    (run : m.execute clock fuel s streams = some ⟨.error ⟨line, .jumpOutside target⟩, left⟩)
    (found : m.program.decoded? line = some (.ok (some i))) (operand : i.jumpTarget? = some o)
    (single : o.expr.literal? = some w) :
    m.program.Reports ⟨line, .jumpOutside target m.program.size⟩ := by
  obtain ⟨outside, other, same, kind⟩ := decoded?_of_jumpOutside run
  rw [found] at same
  cases same
  rcases kind with ⟨ret, rfl⟩ | ⟨jump, also, literal⟩
  · cases operand
  · rw [operand] at also
    cases also
    have value : w = target := literal w single
    subst value
    exact Program.reports_jumpOutside_iff.mpr ⟨rfl, outside, i, o, found, operand, single⟩

theorem LoopHead.execute_of_reports_undecodable {error : DecodeError}
    (head : LoopHead m clock ⟨s, streams⟩ n scene) (early : m.expired? (clock n) = none)
    (bound : n < fuel) (reported : m.program.Reports ⟨scene.state.pc, .undecodable error⟩) :
    m.execute clock fuel s streams =
      some ⟨.error ⟨scene.state.pc, .undecodable error⟩, scene⟩ := by
  have found := Program.reports_undecodable_iff.mp reported
  exact head.execute_of_fails bound early (turn_of_undecodable found)

theorem LoopHead.execute_of_reports_jumpOutside {target : Word} {size : Nat}
    (head : LoopHead m clock ⟨s, streams⟩ n scene) (early : m.expired? (clock n) = none)
    (bound : n < fuel) (reported : m.program.Reports ⟨scene.state.pc, .jumpOutside target size⟩)
    (found : m.program.decoded? scene.state.pc = some (.ok (some i)))
    (taken : i.takesJump scene.state.store.bank = true) :
    ∃ left, m.execute clock fuel s streams =
      some ⟨.error ⟨scene.state.pc, .jumpOutside target⟩, left⟩ := by
  obtain ⟨-, outside, other, o, same, operand, single⟩ :=
    Program.reports_jumpOutside_iff.mp reported
  rw [found] at same
  cases same
  have value := Expr.eval_of_literal? single scene.state.store.bank
  rw [← value] at outside
  obtain ⟨left, fails⟩ := turn_of_outside found taken operand outside
  rw [value] at fails
  exact ⟨left, head.execute_of_fails bound early fails⟩

/-- The check and the runs of a program agree, from whatever state, with whatever clock and streams.
A run fails on an undecodable line, or on a jump with a single literal, only as the check reports
it; and a run that comes to a reported line in time, and takes the jump on it, fails as reported. -/
theorem check_agrees_with_runs (m : Machine) (clock : Clock) (s : State) (streams : Streams) :
    (∀ fuel line error left,
      m.execute clock fuel s streams = some ⟨.error ⟨line, .undecodable error⟩, left⟩ →
        m.program.Reports ⟨line, .undecodable error⟩) ∧
    (∀ fuel line target left i o w,
      m.execute clock fuel s streams = some ⟨.error ⟨line, .jumpOutside target⟩, left⟩ →
      m.program.decoded? line = some (.ok (some i)) → i.jumpTarget? = some o →
      o.expr.literal? = some w →
        m.program.Reports ⟨line, .jumpOutside target m.program.size⟩) ∧
    (∀ count fuel failure left, m.program.check = .ok count →
      m.execute clock fuel s streams = some ⟨.error failure, left⟩ →
        (∀ error, failure.cause ≠ .undecodable error) ∧
        ∀ target, failure.cause = .jumpOutside target →
          ∃ i, m.program.decoded? failure.line = some (.ok (some i)) ∧
            ((∃ o, i = .unary .ret o) ∨ ∃ o, i.jumpTarget? = some o ∧ o.expr.literal? = none)) ∧
    (∀ n scene fuel, LoopHead m clock ⟨s, streams⟩ n scene → m.expired? (clock n) = none →
      n < fuel →
        (∀ error, m.program.Reports ⟨scene.state.pc, .undecodable error⟩ →
          m.execute clock fuel s streams =
            some ⟨.error ⟨scene.state.pc, .undecodable error⟩, scene⟩) ∧
        (∀ target size i, m.program.Reports ⟨scene.state.pc, .jumpOutside target size⟩ →
          m.program.decoded? scene.state.pc = some (.ok (some i)) →
            (i.takesJump scene.state.store.bank = true →
              ∃ left, m.execute clock fuel s streams =
                some ⟨.error ⟨scene.state.pc, .jumpOutside target⟩, left⟩) ∧
            (i.takesJump scene.state.store.bank = false →
              LoopHead m clock ⟨s, streams⟩ (n + 1)
                ⟨⟨scene.state.store, scene.state.pc + 1, scene.state.steps + 1⟩,
                  scene.streams⟩))) := by
  refine ⟨fun fuel line error left => reports_of_undecodable,
    fun fuel line target left i o w => reports_of_jumpOutside, ?_, ?_⟩
  · rintro count fuel ⟨line, cause⟩ left passes run
    refine ⟨?_, ?_⟩
    · rintro error rfl
      exact Program.not_reports_of_check passes _ (reports_of_undecodable run)
    · rintro target rfl
      obtain ⟨-, i, found, ret | ⟨o, operand, -⟩⟩ := decoded?_of_jumpOutside run
      · exact ⟨i, found, .inl ret⟩
      · refine ⟨i, found, .inr ⟨o, operand, ?_⟩⟩
        cases single : o.expr.literal? with
        | none => rfl
        | some w =>
          have reported := reports_of_jumpOutside run found operand single
          exact (Program.not_reports_of_check passes _ reported).elim
  · intro n scene fuel head early bound
    refine ⟨fun error => head.execute_of_reports_undecodable early bound, ?_⟩
    intro target size i reported found
    refine ⟨head.execute_of_reports_jumpOutside early bound reported found, ?_⟩
    intro untaken
    obtain ⟨-, -, other, o, same, operand, -⟩ := Program.reports_jumpOutside_iff.mp reported
    rw [found] at same
    cases same
    exact head.goes ((advance_of_unexpired early).trans (turn_of_untaken found operand untaken))

def jumpsPastEnd : Machine :=
  ofLines #["JPC #(9)", "FOO"]

theorem check_agrees_with_runs_past_end :
    (∃ left, jumpsPastEnd.execute (fun _ => ⟨0⟩) 1 jumpsPastEnd.initial {} =
        some ⟨.error ⟨1, .jumpOutside 9⟩, left⟩) ∧
      jumpsPastEnd.program.Reports ⟨1, .jumpOutside 9 2⟩ ∧
      ∃ left, jumpsPastEnd.execute (fun _ => ⟨0⟩) 5 jumpsPastEnd.initial {} =
        some ⟨.error ⟨1, .jumpOutside 9⟩, left⟩ := by
  have agrees := check_agrees_with_runs jumpsPastEnd (fun _ => ⟨0⟩) jumpsPastEnd.initial {}
  have run : jumpsPastEnd.execute (fun _ => ⟨0⟩) 1 jumpsPastEnd.initial {} =
      some ⟨.error ⟨1, .jumpOutside 9⟩, ⟨{ jumpsPastEnd.initial with steps := 1 }, {}⟩⟩ := rfl
  have reported := agrees.2.1 1 1 9 _ (.unary .jpc ⟨⟨.literal 9, []⟩, true⟩)
    ⟨⟨.literal 9, []⟩, true⟩ 9 run rfl rfl rfl
  have fails := (agrees.2.2.2 0 _ 5 .start rfl (by decide)).2 9 2 _ reported rfl
  exact ⟨⟨_, run⟩, reported, fails.1 rfl⟩

end Machine

end RegisterMachine
