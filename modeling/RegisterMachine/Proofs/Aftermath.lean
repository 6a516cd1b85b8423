import RegisterMachine.Proofs.Emission
import RegisterMachine.Proofs.PointerArithmetic

/-! What a failing instruction leaves behind. The checks of an instruction come before its changes, so
that a failure finds the store as it was. Only a return has taken its line from the stack when it comes
to its last two checks, and then the stack pointer stands one cell up. -/

namespace RegisterMachine

def Cause.reportedSp? : Cause → Option Word
  | .stackOverflow sp | .stackUnderflow sp => some sp
  | _ => none

def Window.Allows (w : Window) (sp : Int) : Prop :=
  w.base.toInt ≤ sp ∧ sp ≤ w.top.toInt

namespace Action

variable {w : Window} {s : Store}

theorem push_failed (covers : s.memory.Covers w) (x : Word) :
    (push w x).Leads s (fun _ _ => True)
      (fun cause t => t = s ∧ cause = .stackOverflow s.bank.sp) := by
  rw [push, leads_bind]
  refine (reserve_exact w s).mono (fun _ t reserved => ?_) fun _ _ full => ⟨full.2.2, full.2.1⟩
  obtain ⟨room, rfl, -⟩ := reserved
  have contained := covers.contains_eq.mpr room.sub_one.2
  simp only [leads_bind, leads_get, leads_write, contained]
  exact ⟨fun _ => trivial, fun outside => by cases outside⟩

theorem pop_failed (w : Window) (s : Store) :
    (pop w).Leads s (fun _ _ => True)
      (fun cause t => t = s ∧ ∀ sp, cause.reportedSp? = some sp → sp = s.bank.sp) := by
  rw [leads_pop]
  refine ⟨fun _ => ⟨rfl, ?_⟩, fun _ => ⟨fun _ _ => trivial, fun _ => ⟨rfl, ?_⟩⟩⟩
  · rintro sp ⟨⟩
    rfl
  · rintro sp ⟨⟩

theorem pop_moves {x : Word} {t : Store} (takes : pop w s = .ok x t) :
    t.memory = s.memory ∧ (∀ r, r ≠ .sp → t.bank.get r = s.bank.get r) ∧
      t.bank.sp.toInt = s.bank.sp.toInt + 1 := by
  obtain ⟨rfl, up⟩ := (pop_exact w s).of_ok takes
  refine ⟨rfl, fun r other => ?_, up.toInt_eq⟩
  cases r with
  | sp => exact (other rfl).elim
  | _ => rfl

theorem discard_failed (w : Window) (count : Word) (s : Store) :
    (discard w count).Leads s (fun _ _ => True)
      (fun cause t => t = s ∧ ¬w.Allows (s.bank.sp.toInt + count.toInt) ∧
        cause.reportedSp? = some s.bank.sp) := by
  rw [leads_discard]
  refine ⟨fun above => ⟨rfl, fun allowed => ?_, rfl⟩,
    fun _ => ⟨fun below => ⟨rfl, fun allowed => ?_, rfl⟩, fun _ => trivial⟩⟩
  · have high := allowed.2
    omega
  · have low := allowed.1
    omega

end Action

namespace Machine

open RegisterMachine.Action

variable {m : Machine} {s : Store} {scene left : Scene} {i : Instruction} {failure : Failure}

def Untouched (s : Store) (cause : Cause) (t : Store) : Prop :=
  t = s ∧ ∀ sp, cause.reportedSp? = some sp → sp = s.bank.sp

theorem untouched_of_silent {cause : Cause} (silent : cause.reportedSp? = none) :
    Untouched s cause s := by
  refine ⟨rfl, fun sp reported => ?_⟩
  rw [silent] at reported
  cases reported

theorem untouched_of_overflow : Untouched s (.stackOverflow s.bank.sp) s := by
  refine ⟨rfl, ?_⟩
  rintro sp ⟨⟩
  rfl

theorem performUnary_failed (covers : s.memory.Covers m.window) (pc : Nat) (o : Operand) {op : Unary}
    (stays : op ≠ .ret) :
    (m.performUnary pc o op).Leads s (fun _ _ => True) (Untouched s) := by
  have pushed (x : Word) : (push m.window x).Leads s (fun _ _ => True) (Untouched s) := by
    refine (push_failed covers x).mono (fun _ _ _ => trivial) ?_
    rintro cause t ⟨rfl, rfl⟩
    exact untouched_of_overflow
  cases op with
  | push =>
    simp only [performUnary, leads_bind, leads_value, leads_pure]
    exact pushed _
  | jmp => simpa [performUnary] using fun _ => untouched_of_silent rfl
  | jpc => simpa [performUnary] using fun _ _ => untouched_of_silent rfl
  | call =>
    simp only [performUnary, leads_bind, leads_value, leads_target, leads_pure]
    exact ⟨fun line _ => pushed _, fun _ => untouched_of_silent rfl⟩
  | ret => exact (stays rfl).elim
  | print => simp [performUnary]

theorem performNullary_failed (pc : Nat) (op : Nullary) :
    (m.performNullary pc op).Leads s (fun _ _ => True) (Untouched s) := by
  cases op with
  | pushUp =>
    simp only [performNullary, leads_bind, leads_reserve, leads_pure]
    exact ⟨fun _ => untouched_of_overflow, fun _ => trivial⟩
  | arith op =>
    simp only [performNullary, leads_bind, leads_get]
    split
    · trivial
    · exact untouched_of_silent rfl
  | _ => simp [performNullary]

theorem perform_failed (covers : s.memory.Covers m.window) (pc : Nat)
    (stays : ∀ o, i ≠ .unary .ret o) :
    (m.perform pc i).Leads s (fun _ _ => True) (Untouched s) := by
  cases i with
  | load dst src => simpa [perform] using fun _ _ => untouched_of_silent rfl
  | store value address => simpa [perform] using fun _ => untouched_of_silent rfl
  | pop dst =>
    simp only [perform, leads_bind, leads_setRegister, leads_pure]
    exact pop_failed m.window s
  | unary op o =>
    have other : op ≠ .ret := by
      rintro rfl
      exact stays o rfl
    exact performUnary_failed covers pc o other
  | nullary op => exact performNullary_failed pc op

/-- What an instruction that fails by this cause leaves of the store `s`: all of it, or what there is
after a return has taken its line, which is outside the program or is followed by a discard that leads
out of the window. -/
inductive Aftermath (m : Machine) (s : Store) : Instruction → Cause → Store → Prop where
  | untouched {i : Instruction} {cause : Cause} {t : Store}
      (early : ∀ o line u, i = .unary .ret o → pop m.window s ≠ .ok line u)
      (same : Untouched s cause t) : Aftermath m s i cause t
  | stray {o : Operand} {line : Word} {t : Store} (takes : pop m.window s = .ok line t)
      (outside : ¬m.program.HasLine line) : Aftermath m s (.unary .ret o) (.jumpOutside line) t
  | discarding {o : Operand} {line : Word} {cause : Cause} {t : Store}
      (takes : pop m.window s = .ok line t) (inside : m.program.HasLine line)
      (leaves : ¬m.window.Allows (t.bank.sp.toInt + (o.expr.eval t.bank).toInt))
      (reported : cause.reportedSp? = some t.bank.sp) : Aftermath m s (.unary .ret o) cause t

theorem performReturn_aftermath (pc : Nat) (o : Operand) :
    (m.perform pc (.unary .ret o)).Leads s (fun _ _ => True) (Aftermath m s (.unary .ret o)) := by
  rw [perform, performUnary, leads_bind, Leads]
  cases takes : pop m.window s with
  | error e u =>
    refine .untouched ?_ ((pop_failed m.window s).of_error takes)
    intro o line t _
    simp [takes]
  | ok line t =>
    simp only [leads_bind, leads_target, leads_value, leads_pure]
    refine ⟨fun target found => ?_, fun outside => ?_⟩
    · have inside : m.program.HasLine line := by
        refine Classical.not_not.mp fun outside => ?_
        rw [Program.target?_eq_none_iff.mpr outside] at found
        cases found
      refine (discard_failed m.window _ t).mono (fun _ _ _ => trivial) ?_
      rintro cause u ⟨rfl, leaves, reported⟩
      exact .discarding takes inside leaves reported
    · exact .stray takes (Program.target?_eq_none_iff.mp outside)

theorem perform_aftermath (covers : s.memory.Covers m.window) (pc : Nat) (i : Instruction) :
    (m.perform pc i).Leads s (fun _ _ => True) (Aftermath m s i) := by
  by_cases returns : ∃ o, i = .unary .ret o
  · obtain ⟨o, rfl⟩ := returns
    exact performReturn_aftermath pc o
  · have stays := not_exists.mp returns
    refine (perform_failed covers pc stays).mono (fun _ _ _ => trivial) fun cause t same => ?_
    exact .untouched (fun o _ _ ret => (stays o ret).elim) same

theorem carryOut_aftermath (covers : scene.state.store.memory.Covers m.window)
    (fails : m.carryOut i scene = .fails failure left) :
    left.state.pc = scene.state.pc ∧
      Aftermath m scene.state.store i failure.cause left.state.store := by
  rw [carryOut] at fails
  cases performed : m.perform scene.state.pc i scene.state.store with
  | error cause store =>
    rw [performed] at fails
    cases fails
    exact ⟨rfl, (perform_aftermath covers _ i).of_error performed⟩
  | ok flow store =>
    rw [performed] at fails
    obtain ⟨emits, same⟩ := (m.perform_emission scene.state.pc i scene.state.store).of_ok performed
    cases flow with
    | emit channel text =>
      rw [same rfl] at fails
      simp only [follow] at fails
      split at fails
      · cases fails
      · cases fails
        refine ⟨rfl, .untouched ?_ (untouched_of_silent rfl)⟩
        rintro o line u rfl
        cases emits
    | _ => cases fails

/-- Wherever a run stands, an instruction that fails leaves the line, every cell and all registers but
the stack pointer as they are. The stack pointer is left too, and a failure of the stack reports it,
unless the instruction is a return that has taken its line from the stack. Such a return fails because
that line is not one of the program or because its discard leads out of the window; the stack pointer
then stands one cell up, and the failed discard reports it there. -/
theorem failure_moves_only_return_sp (m : Machine) (s : State) (reached : Reachable m s)
    (clock : Clock) (streams : Streams) (n : Nat) (scene : Scene)
    (head : LoopHead m clock ⟨s, streams⟩ n scene) (i : Instruction) (failure : Failure) (left : Scene)
    (fails : m.carryOut i scene = .fails failure left) :
    let before := scene.state.store
    let after := left.state.store
    left.state.pc = scene.state.pc ∧ after.memory = before.memory ∧
    (∀ r, r ≠ .sp → after.bank.get r = before.bank.get r) ∧
    ((∀ o line t, i = .unary .ret o → Action.pop m.window before ≠ .ok line t) →
      after.bank.sp = before.bank.sp ∧
      ∀ sp, failure.cause.reportedSp? = some sp → sp = before.bank.sp) ∧
    ∀ o line t, i = .unary .ret o → Action.pop m.window before = .ok line t →
      after.bank.sp.toInt = before.bank.sp.toInt + 1 ∧
      (¬m.program.HasLine line ∧ failure.cause = .jumpOutside line ∨
        m.program.HasLine line ∧
          ¬m.window.Allows (after.bank.sp.toInt + (o.expr.eval after.bank).toInt) ∧
          failure.cause.reportedSp? = some after.bank.sp) := by
  intro before after
  obtain ⟨pc, aftermath⟩ := carryOut_aftermath (head.covers reached) fails
  generalize failure.cause = cause at aftermath ⊢
  refine ⟨pc, ?_⟩
  cases aftermath with
  | untouched early same =>
    obtain ⟨same, reported⟩ := same
    have kept : after = before := same
    rw [kept]
    exact ⟨rfl, fun _ _ => rfl, fun _ => ⟨rfl, reported⟩,
      fun o line t ret takes => (early o line t ret takes).elim⟩
  | stray takes outside =>
    obtain ⟨memory, registers, up⟩ := pop_moves takes
    refine ⟨memory, registers, fun early => (early _ _ _ rfl takes).elim, ?_⟩
    rintro o line t ⟨⟩ takes'
    rw [takes] at takes'
    cases takes'
    exact ⟨up, .inl ⟨outside, rfl⟩⟩
  | discarding takes inside leaves reported =>
    obtain ⟨memory, registers, up⟩ := pop_moves takes
    refine ⟨memory, registers, fun early => (early _ _ _ rfl takes).elim, ?_⟩
    rintro o line t ⟨⟩ takes'
    rw [takes] at takes'
    cases takes'
    exact ⟨up, .inr ⟨inside, leaves, reported⟩⟩

def greedyReturn : Machine :=
  ofLines #["CALL 3", "END", "RET 1"] { window := ⟨5, 6⟩ }

theorem failure_moves_only_return_sp_at_top :
    ∃ scene left, LoopHead greedyReturn (fun _ => ⟨0⟩) ⟨greedyReturn.initial, {}⟩ 1 scene ∧
      greedyReturn.turn scene = .fails ⟨3, .stackUnderflow 6⟩ left ∧
      scene.state.store.bank.sp = 5 ∧ left.state.store.bank.sp.toInt = 5 + 1 ∧
      left.state.store.memory = scene.state.store.memory ∧
      left.state.store.bank.fp = scene.state.store.bank.fp := by
  let called : Scene := ⟨⟨⟨⟨0, 0, 0, 6, 5⟩, ⟨5, #[2]⟩⟩, 3, 1⟩, {}⟩
  let failed : Scene := ⟨⟨⟨⟨0, 0, 0, 6, 6⟩, ⟨5, #[2]⟩⟩, 3, 2⟩, {}⟩
  let ret : Operand := ⟨⟨.literal 1, []⟩, false⟩
  have head : LoopHead greedyReturn (fun _ => ⟨0⟩) ⟨greedyReturn.initial, {}⟩ 1 called :=
    LoopHead.start.goes rfl
  have fails : greedyReturn.carryOut (.unary .ret ret) called =
      .fails ⟨3, .stackUnderflow 6⟩ failed := rfl
  obtain ⟨-, memory, registers, -, late⟩ :=
    failure_moves_only_return_sp greedyReturn _ .initial _ {} 1 called head _ _ _ fails
  exact ⟨called, failed, head, rfl, rfl, (late ret 2 _ rfl rfl).1, memory, registers .fp (by simp)⟩

end Machine

end RegisterMachine
