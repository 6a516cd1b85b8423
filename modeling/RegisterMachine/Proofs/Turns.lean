import RegisterMachine.Program.Check
import RegisterMachine.Proofs.Actions
import RegisterMachine.Proofs.Runs

/-! One turn, by what its line decodes to: there is no such line, the line does not decode, it holds
no instruction, or it holds one. -/

namespace RegisterMachine

namespace Program

variable {p : Program} {n : Nat}

def decoded? (p : Program) (n : Nat) : Option (Except DecodeError (Option Instruction)) :=
  (p.line? n).map Instruction.decode

def isInstruction (p : Program) (n : Nat) : Bool :=
  (p.decoded? n).any Instruction.isPresent

theorem isInstruction_iff :
    p.isInstruction n = true ↔ ∃ i, p.decoded? n = some (.ok (some i)) := by
  rw [isInstruction, Option.any_eq_true]
  constructor
  · rintro ⟨line, found, present⟩
    cases line with
    | error e => cases present
    | ok i =>
      cases i with
      | none => cases present
      | some i => exact ⟨i, found⟩
  · rintro ⟨i, found⟩
    exact ⟨_, found, rfl⟩

theorem line?_eq_none_iff : p.line? n = none ↔ n = 0 ∨ p.size < n := by
  by_cases zero : n = 0
  · simp [line?, zero]
  · simp only [line?, zero, if_false, false_or, Array.getElem?_eq_none_iff, size]
    omega

theorem mem_of_line? {line : String} (found : p.line? n = some line) : line ∈ p.lines := by
  rw [line?] at found
  split at found
  · cases found
  · exact Array.mem_of_getElem? found

theorem decoded?_eq_none_iff : p.decoded? n = none ↔ n = 0 ∨ p.size < n := by
  rw [decoded?, Option.map_eq_none_iff, line?_eq_none_iff]

theorem bounds_of_decoded? {line : Except DecodeError (Option Instruction)}
    (found : p.decoded? n = some line) : 1 ≤ n ∧ n ≤ p.size := by
  have inside : ¬(n = 0 ∨ p.size < n) := by
    rw [← decoded?_eq_none_iff, found]
    simp
  omega

theorem bounds_of_target? {w : Word} (found : p.target? w = some n) : 1 ≤ n ∧ n ≤ p.size := by
  rw [target?] at found
  split at found
  · rename_i inside
    cases found
    omega
  · cases found

def HasLine (p : Program) (line : Word) : Prop :=
  1 ≤ line.toInt ∧ line.toInt ≤ p.size

theorem target?_eq_none_iff {line : Word} : p.target? line = none ↔ ¬p.HasLine line := by
  rw [target?, HasLine]
  split <;> simp_all

end Program

namespace Machine

variable {m : Machine} {scene left : Scene} {failure : Failure}

def carryOut (m : Machine) (i : Instruction) (scene : Scene) : Turn :=
  match m.perform scene.state.pc i scene.state.store with
  | .error cause store =>
      .fails ⟨scene.state.pc, cause⟩ ⟨⟨store, scene.state.pc, scene.state.steps + 1⟩, scene.streams⟩
  | .ok flow store => follow store scene.state.pc (scene.state.steps + 1) scene.streams flow

theorem turn_eq (m : Machine) (scene : Scene) :
    m.turn scene =
      match m.program.decoded? scene.state.pc with
      | none => .fails ⟨scene.state.pc, .endOfProgram⟩ scene
      | some (.error error) => .fails ⟨scene.state.pc, .undecodable error⟩ scene
      | some (.ok none) => .goes ⟨{ scene.state with pc := scene.state.pc + 1 }, scene.streams⟩
      | some (.ok (some i)) => m.carryOut i scene := by
  obtain ⟨⟨store, pc, steps⟩, streams⟩ := scene
  rw [turn, Program.decoded?]
  cases m.program.line? pc with
  | none => rfl
  | some line =>
    simp only [Option.map_some]
    cases Instruction.decode line with
    | error error => rfl
    | ok i => cases i <;> rfl

theorem turn_of_instruction {i : Instruction}
    (found : m.program.decoded? scene.state.pc = some (.ok (some i))) :
    m.turn scene = m.carryOut i scene := by
  rw [turn_eq, found]

theorem follow_store (store : Store) (pc steps : Nat) (streams : Streams) (flow : Flow) :
    (follow store pc steps streams flow).scene.state.store = store := by
  cases flow with
  | next => rfl
  | jump line => rfl
  | halt => rfl
  | emit channel text =>
    rw [follow]
    split <;> rfl

theorem turn_keeps {P : Store → Prop}
    (kept : ∀ pc i s, m.program.decoded? pc = some (.ok (some i)) → P s →
      (m.perform pc i).Leads s (fun _ t => P t) fun _ t => P t)
    (scene : Scene) (holds : P scene.state.store) : P (m.turn scene).scene.state.store := by
  rw [turn_eq]
  split
  · exact holds
  · exact holds
  · exact holds
  · rename_i i found
    have leads := kept _ _ _ found holds
    rw [carryOut]
    cases performed : m.perform scene.state.pc i scene.state.store with
    | error cause store => exact leads.of_error performed
    | ok flow store =>
      dsimp only
      rw [follow_store]
      exact leads.of_ok performed

theorem carryOut_eq_goes {i : Instruction} {next : Scene} (goes : m.carryOut i scene = .goes next) :
    ∃ flow, m.perform scene.state.pc i scene.state.store = .ok flow next.state.store ∧
      follow next.state.store scene.state.pc (scene.state.steps + 1) scene.streams flow =
        .goes next := by
  rw [carryOut] at goes
  cases performed : m.perform scene.state.pc i scene.state.store with
  | error cause store =>
    rw [performed] at goes
    cases goes
  | ok flow store =>
    rw [performed] at goes
    have after := follow_store store scene.state.pc (scene.state.steps + 1) scene.streams flow
    dsimp only at goes
    rw [goes] at after
    have same : store = next.state.store := after.symm
    subst same
    exact ⟨flow, rfl, goes⟩

theorem carryOut_eq_fails {i : Instruction} (fails : m.carryOut i scene = .fails failure left) :
    (∃ store, m.perform scene.state.pc i scene.state.store = .error failure.cause store ∧
      left = ⟨⟨store, scene.state.pc, scene.state.steps + 1⟩, scene.streams⟩) ∨
      failure.cause = .output Sink.refusal := by
  rw [carryOut] at fails
  split at fails
  · rename_i cause store performed
    cases fails
    exact .inl ⟨store, performed, rfl⟩
  · rename_i flow store performed
    cases flow with
    | next => cases fails
    | jump line => cases fails
    | halt => cases fails
    | emit channel text =>
      rw [follow] at fails
      split at fails
      · cases fails
      · cases fails
        exact .inr rfl

theorem perform_jump (m : Machine) (pc : Nat) (i : Instruction) (s : Store) :
    (m.perform pc i).Leads s
      (fun flow _ => ∀ line, flow = .jump line → 1 ≤ line ∧ line ≤ m.program.size)
      (fun _ _ => True) := by
  have inside (w : Word) (line : Nat) (found : m.program.target? w = some line) :=
    Program.bounds_of_target? found
  cases i with
  | load dst src => simp [perform]
  | store value address => simp [perform]
  | pop dst => simp [perform]
  | unary op o =>
    cases op with
    | push => simp [perform, performUnary]
    | jmp => simpa [perform, performUnary] using inside _
    | jpc => simpa [perform, performUnary] using fun _ => inside _
    | call => simpa [perform, performUnary] using fun line found _ _ _ => inside _ line found
    | ret => simpa [perform, performUnary] using fun _ x _ line found _ _ => inside x line found
    | print => simp [perform, performUnary]
  | nullary op =>
    cases op with
    | arith op =>
      simp only [perform, performNullary, Action.leads_bind, Action.leads_get]
      split <;> simp
    | _ => simp [perform, performNullary]

theorem perform_of_size {p p' : Program} (same : p.size = p'.size) (settings : Settings) (pc : Nat)
    {i : Instruction} (other : i ≠ .nullary .debug) :
    (⟨p, settings⟩ : Machine).perform pc i = (⟨p', settings⟩ : Machine).perform pc i := by
  have targets : Action.target p = Action.target p' := by
    funext x s
    rw [Action.target, Action.target, Program.target?, Program.target?, same]
  cases i with
  | load dst src => rfl
  | store value address => rfl
  | pop dst => rfl
  | unary op o => cases op <;> simp only [perform, performUnary, targets] <;> rfl
  | nullary op =>
    cases op with
    | debug => exact (other rfl).elim
    | _ => rfl

/-- The causes by which an instruction can fail with these values in the registers. A jump outside
the program is that of a return or of a jump operand with that value. -/
def OwnCause (m : Machine) (i : Instruction) (bank : Bank) : Cause → Prop
  | .addressOutOfRange _ | .divisionByZero | .stackOverflow _ | .stackUnderflow _ => True
  | .jumpOutside target =>
      m.program.target? target = none ∧
        ((∃ o, i = .unary .ret o) ∨ ∃ o, i.jumpTarget? = some o ∧ o.expr.eval bank = target)
  | .undecodable _ | .timeout _ | .endOfProgram | .output _ => False

theorem perform_cause (m : Machine) (pc : Nat) (i : Instruction) (s : Store) :
    (m.perform pc i).Leads s (fun _ _ => True) (fun cause _ => m.OwnCause i s.bank cause) := by
  cases i with
  | load dst src => simp [perform, OwnCause]
  | store value address => simp [perform, OwnCause]
  | pop dst => simp [perform, OwnCause]
  | unary op o =>
    cases op <;> simp [perform, performUnary, OwnCause, Instruction.jumpTarget?]
  | nullary op =>
    cases op with
    | arith op =>
      simp only [perform, performNullary, Action.leads_bind, Action.leads_get]
      split <;> simp [OwnCause]
    | _ => simp [perform, performNullary, OwnCause]

/-- The failures that a turn can end in, by what their line decodes to. -/
inductive CanFail (m : Machine) : Failure → Prop where
  | endOfProgram {line : Nat} : m.program.decoded? line = none → CanFail m ⟨line, .endOfProgram⟩
  | undecodable {line : Nat} {error : DecodeError} :
      m.program.decoded? line = some (.error error) → CanFail m ⟨line, .undecodable error⟩
  | operation {line : Nat} {i : Instruction} {cause : Cause} {store left : Store} :
      m.program.decoded? line = some (.ok (some i)) →
      m.perform line i store = .error cause left → CanFail m ⟨line, cause⟩
  | output {line : Nat} {i : Instruction} :
      m.program.decoded? line = some (.ok (some i)) → CanFail m ⟨line, .output Sink.refusal⟩

theorem CanFail.not_timeout (can : m.CanFail failure) (budget : Duration) :
    failure.cause ≠ .timeout budget := by
  cases can with
  | endOfProgram found => simp
  | undecodable found => simp
  | operation found performed =>
    have own := (perform_cause m _ _ _).of_error performed
    rintro rfl
    cases own
  | output found => simp

theorem turn_eq_fails (fails : m.turn scene = .fails failure left) :
    failure.line = scene.state.pc ∧ left.state.pc = scene.state.pc ∧ m.CanFail failure := by
  rw [turn_eq] at fails
  split at fails
  · rename_i found
    cases fails
    exact ⟨rfl, rfl, .endOfProgram found⟩
  · rename_i error found
    cases fails
    exact ⟨rfl, rfl, .undecodable found⟩
  · cases fails
  · rename_i i found
    rw [carryOut] at fails
    split at fails
    · rename_i cause store performed
      cases fails
      exact ⟨rfl, rfl, .operation found performed⟩
    · rename_i flow store performed
      cases flow with
      | next => cases fails
      | jump line => cases fails
      | halt => cases fails
      | emit channel text =>
        rw [follow] at fails
        split at fails
        · cases fails
        · cases fails
          exact ⟨rfl, rfl, .output found⟩

theorem execute_fails {clock : Clock} {fuel : Nat} {s : State} {streams : Streams}
    (run : m.execute clock fuel s streams = some ⟨.error failure, left⟩) :
    failure.line = left.state.pc ∧
      ((∃ budget, failure.cause = .timeout budget) ∨ m.CanFail failure) := by
  obtain ⟨n, head, -, -, ⟨budget, -, rfl, rfl⟩ | ⟨-, fails⟩⟩ := execute_eq_error run
  · exact ⟨rfl, .inl ⟨budget, rfl⟩⟩
  · obtain ⟨line, stays, can⟩ := turn_eq_fails fails
    exact ⟨line.trans stays.symm, .inr can⟩

end Machine

end RegisterMachine
