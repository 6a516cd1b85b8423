import Mathlib.Data.List.Perm.Subperm
import RegisterMachine.Proofs.Findings
import RegisterMachine.Proofs.VisitedLines

/-! Programs that only go forward. Where no line returns and every jump is to a literal line further
down, a turn that goes on does so at a later line. The line itself is then the measure of a run: it
grows with every turn and cannot pass the end of the program, so that the run comes to an end and looks
at no line twice. -/

namespace RegisterMachine

/-- Whether the instruction on line `n` can go on only further down: it is no return, and if it is a
jump or a call, its operand is a literal line below. -/
def Instruction.goesForward (n : Nat) : Instruction → Bool
  | .unary .ret _ => false
  | .unary .jmp o | .unary .jpc o | .unary .call o =>
      match o.expr.literal? with
      | some line => (n : Int) < line.toInt
      | none => false
  | _ => true

namespace Program

variable {p : Program}

/-- Every instruction goes forward. Lines that hold none, or do not decode, are as they may be. -/
def Forward (p : Program) : Prop :=
  ∀ n i, p.decoded? n = some (.ok (some i)) → i.goesForward n = true

theorem forward_iff :
    ((List.range' 1 p.size).all fun n =>
      match p.decoded? n with
      | some (.ok (some i)) => i.goesForward n
      | _ => true) = true ↔ p.Forward := by
  rw [List.all_eq_true]
  constructor
  · intro each n i found
    obtain ⟨low, high⟩ := bounds_of_decoded? found
    have here := each n (by rw [List.mem_range'_1]; omega)
    rwa [found] at here
  · intro forward n _
    split
    · rename_i i found
      exact forward n i found
    · rfl

instance (p : Program) : Decidable p.Forward :=
  decidable_of_iff _ forward_iff

theorem bounds_of_isInstruction {n : Nat} (holds : p.isInstruction n = true) :
    1 ≤ n ∧ n ≤ p.size := by
  obtain ⟨i, found⟩ := isInstruction_iff.mp holds
  exact bounds_of_decoded? found

theorem countP_le_instructionCount {lines : List Nat} (ordered : lines.Pairwise (· < ·)) :
    lines.countP p.isInstruction ≤ p.instructionCount := by
  have distinct : (lines.filter p.isInstruction).Nodup :=
    (ordered.imp Nat.ne_of_lt).filter _
  have among : lines.filter p.isInstruction ⊆ (List.range' 1 p.size).filter p.isInstruction := by
    intro n mem
    obtain ⟨-, holds⟩ := List.mem_filter.mp mem
    have bounds := bounds_of_isInstruction holds
    exact List.mem_filter.mpr ⟨by rw [List.mem_range'_1]; omega, holds⟩
  rw [instructionCount_eq, List.countP_eq_length_filter, List.countP_eq_length_filter]
  exact (List.subperm_of_subset distinct among).length_le

end Program

namespace Machine

variable {m : Machine} {clock : Clock} {start scene next : Scene} {n : Nat}

theorem lt_of_target? {p : Program} {e : Expr} {bank : Bank} {line : Nat}
    (below : (match e.literal? with
      | some line => decide ((n : Int) < line.toInt)
      | none => false) = true)
    (found : p.target? (e.eval bank) = some line) : n < line := by
  cases single : e.literal? with
  | none => simp [single] at below
  | some w =>
    rw [single, decide_eq_true_eq] at below
    rw [Expr.eval_of_literal? single, Program.target?] at found
    split at found
    · cases found
      omega
    · cases found

theorem perform_forward {pc : Nat} {i : Instruction} (forward : i.goesForward pc = true) (s : Store) :
    (m.perform pc i).Leads s (fun flow _ => ∀ line, flow = .jump line → pc < line)
      (fun _ _ => True) := by
  cases i with
  | load dst src => simp [perform]
  | store value address => simp [perform]
  | pop dst => simp [perform]
  | unary op o =>
    cases op with
    | push => simp [perform, performUnary]
    | jmp => simpa [perform, performUnary] using fun line => lt_of_target? forward
    | jpc => simpa [perform, performUnary] using fun _ line => lt_of_target? forward
    | call =>
      simpa [perform, performUnary] using fun line found _ _ _ => lt_of_target? forward found
    | ret => cases forward
    | print => simp [perform, performUnary]
  | nullary op =>
    cases op with
    | arith op =>
      simp only [perform, performNullary, Action.leads_bind, Action.leads_get]
      split <;> simp
    | _ => simp [perform, performNullary]

theorem pc_of_follow {store : Store} {pc steps : Nat} {streams : Streams} {flow : Flow}
    (goes : follow store pc steps streams flow = .goes next) :
    next.state.pc = pc + 1 ∨ flow = .jump next.state.pc := by
  cases flow with
  | next => cases goes; exact .inl rfl
  | jump line => cases goes; exact .inr rfl
  | halt => cases goes
  | emit channel text =>
    rw [follow] at goes
    split at goes
    · cases goes; exact .inl rfl
    · cases goes

theorem pc_lt_of_goes (forward : m.program.Forward) (goes : m.turn scene = .goes next) :
    scene.state.pc < next.state.pc ∧ scene.state.pc ≤ m.program.size := by
  rw [turn_eq] at goes
  split at goes
  · cases goes
  · cases goes
  · rename_i found
    cases goes
    exact ⟨Nat.lt_succ_self _, (Program.bounds_of_decoded? found).2⟩
  · rename_i i found
    refine ⟨?_, (Program.bounds_of_decoded? found).2⟩
    obtain ⟨flow, performed, after⟩ := carryOut_eq_goes goes
    obtain falls | jumps := pc_of_follow after
    · omega
    · exact (perform_forward (forward _ _ found) _).of_ok performed _ jumps

theorem LoopHead.add_le_pc (forward : m.program.Forward) (head : LoopHead m clock start n scene) :
    start.state.pc + n ≤ scene.state.pc := by
  induction head with
  | start => exact Nat.le_refl _
  | goes _ step ih =>
    have moves := (pc_lt_of_goes forward (turn_of_advance_goes step)).1
    omega

theorem execute_ne_none (forward : m.program.Forward) {s : State} (on : 1 ≤ s.pc) {fuel : Nat}
    (enough : m.program.size < fuel) (streams : Streams) :
    m.execute clock fuel s streams ≠ none := by
  intro runs
  obtain ⟨scene, head⟩ := execute_eq_none_iff.mp runs
  cases head with
  | start => omega
  | goes before step =>
    have passed := before.add_le_pc forward
    have inside := (pc_lt_of_goes forward (turn_of_advance_goes step)).2
    simp only at passed
    omega

theorem fetchesFrom_ordered (forward : m.program.Forward) (turns look : Nat) (scene : Scene) :
    (m.fetchesFrom clock turns look scene).Pairwise (· < ·) ∧
      ∀ n ∈ m.fetchesFrom clock turns look scene, scene.state.pc ≤ n := by
  induction turns generalizing look scene with
  | zero => simp [fetchesFrom]
  | succ turns ih =>
    rw [fetchesFrom]
    cases m.expired? (clock look) with
    | some budget => simp
    | none =>
      cases turn : m.turn scene with
      | goes next =>
        obtain ⟨ordered, later⟩ := ih (look + 1) next
        have moves := (pc_lt_of_goes forward turn).1
        simp only [List.pairwise_cons, List.mem_cons, forall_eq_or_imp, Nat.le_refl, true_and]
        exact ⟨⟨fun n mem => by have := later n mem; omega, ordered⟩,
          fun n mem => by have := later n mem; omega⟩
      | halts left => simp
      | fails failure left => simp

/-- A program that goes forward comes to an end, in one way or another, from any line and in any state:
it takes no more turns than to pass every line and the end of the program once. It fetches no line twice
and none before an earlier one, and a fresh machine counts no more steps than there are instructions. -/
theorem forward_programs_terminate (m : Machine) (forward : m.program.Forward) (clock : Clock)
    (streams : Streams) :
    (∀ s : State, 1 ≤ s.pc → ∃ ending, ∀ fuel, m.program.size < fuel →
      m.execute clock fuel s streams = some ending) ∧
    (∀ s turns, (m.fetches clock turns s streams).Pairwise (· < ·)) ∧
    ∀ fuel ending, m.execute clock fuel m.initial streams = some ending →
      ending.scene.state.steps ≤ m.program.instructionCount ∧
      ∀ steps, ending.outcome = .ok steps → steps ≤ m.program.instructionCount := by
  have ordered (s : State) (turns : Nat) : (m.fetches clock turns s streams).Pairwise (· < ·) :=
    (fetchesFrom_ordered forward turns 0 ⟨s, streams⟩).1
  refine ⟨fun s on => ?_, ordered, fun fuel ending run => ?_⟩
  · cases run : m.execute clock (m.program.size + 1) s streams with
    | none => exact (execute_ne_none forward on (Nat.lt_succ_self _) streams run).elim
    | some ending =>
      obtain ⟨n, scene, bound, head, ends⟩ := execute_eq_some_iff.mp run
      refine ⟨ending, fun fuel enough => execute_eq_some_iff.mpr ⟨n, scene, ?_, head, ends⟩⟩
      omega
  · have counted : ending.scene.state.steps =
        0 + (m.fetches clock fuel m.initial streams).countP m.program.isInstruction :=
      steps_executeFrom run
    have few : ending.scene.state.steps ≤ m.program.instructionCount := by
      rw [counted, Nat.zero_add]
      exact Program.countP_le_instructionCount (ordered m.initial fuel)
    refine ⟨few, fun steps finished => ?_⟩
    have outcome := outcome_of_execute run
    rw [finished] at outcome
    cases failed : ending.failure? with
    | none =>
      rw [failed] at outcome
      cases outcome
      exact few
    | some failure =>
      rw [failed] at outcome
      cases outcome

def downhill : Machine :=
  ofLines #["JPC #(4)", "never here", "", "CALL 6", "END", "PUSH 2", "JMP 99"] { window := ⟨4, 8⟩ }

theorem forward_programs_terminate_of_downhill :
    downhill.program.Forward ∧
      downhill.fetches (fun _ => ⟨0⟩) 9 downhill.initial {} = [1, 4, 6, 7] ∧
      (downhill.fetches (fun _ => ⟨0⟩) 9 downhill.initial {}).Pairwise (· < ·) ∧
      ∃ ending, (∀ fuel, 7 < fuel →
          downhill.execute (fun _ => ⟨0⟩) fuel downhill.initial {} = some ending) ∧
        ending.scene.state.steps ≤ 5 := by
  have forward : downhill.program.Forward := by decide
  obtain ⟨ends, ordered, counted⟩ :=
    forward_programs_terminate downhill forward (fun _ => ⟨0⟩) {}
  obtain ⟨ending, runs⟩ := ends downhill.initial (Nat.le_refl 1)
  have count : downhill.program.instructionCount = 5 := by decide
  rw [count] at counted
  exact ⟨forward, by rfl, ordered _ _, ending, runs, (counted 8 ending (runs 8 (by decide))).1⟩

end Machine

end RegisterMachine
