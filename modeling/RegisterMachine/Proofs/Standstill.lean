import RegisterMachine.Proofs.Aftermath

/-! Machines that have come to an end. A run halts or fails on the line where it stands, and a turn
that ends the run leaves the store as it was, so that the next execution begins with the same turn.
What it adds is at most one to the count of steps. Two failures are not for good: a text that finds
room the next time, and a return that has taken its line from the stack. -/

namespace RegisterMachine

structure Attempt where
  clock : Clock
  streams : Streams

def Attempt.ending (attempt : Attempt) (failure? : Option Failure) (s : State) : Ending :=
  match failure? with
  | none => ⟨.ok { steps := s.steps, elapsed := attempt.clock 1 }, ⟨s, attempt.streams⟩⟩
  | some failure => ⟨.error failure, ⟨s, attempt.streams⟩⟩

/-- How many steps are counted by a turn that fails: one if its line holds an instruction. -/
def Cause.stepsCounted : Cause → Nat
  | .undecodable _ | .endOfProgram => 0
  | _ => 1

def Turn.stop (failure? : Option Failure) (scene : Scene) : Turn :=
  match failure? with
  | none => .halts scene
  | some failure => .fails failure scene

theorem Turn.ending?_stop (attempt : Attempt) (failure? : Option Failure) (s : State) :
    (Turn.stop failure? ⟨s, attempt.streams⟩).ending? (attempt.clock 1) =
      some (attempt.ending failure? s) := by
  cases failure? <;> rfl

namespace Machine

variable {m : Machine} {scene left : Scene} {s : State} {failure : Failure} {k : Nat}

/-- Executes the machine once for each attempt, from where the one before has left it. -/
def executeAll (m : Machine) (fuel : Nat) : State → List Attempt → Option (List Ending)
  | _, [] => some []
  | s, attempt :: rest => do
      let ending ← m.execute attempt.clock fuel s attempt.streams
      let endings ← m.executeAll fuel ending.scene.state rest
      return ending :: endings

/-- On the line and with the store of `s`, every turn stops in the same way, whatever the count of
steps and the streams are, and does nothing but to count `k` steps. -/
def Stands (m : Machine) (failure? : Option Failure) (k : Nat) (s : State) : Prop :=
  ∀ steps streams, m.turn ⟨{ s with steps }, streams⟩ =
    Turn.stop failure? ⟨{ s with steps := steps + k }, streams⟩

theorem Stands.execute {failure? : Option Failure} (stands : m.Stands failure? k s)
    (untimed : m.settings.budget = none) (fuel : Nat) (attempt : Attempt) :
    m.execute attempt.clock (fuel + 1) s attempt.streams =
      some (attempt.ending failure? { s with steps := s.steps + k }) := by
  refine executeFrom_of_ending? ?_ fuel
  rw [advance_of_no_budget untimed, stands s.steps attempt.streams, Turn.ending?_stop]

theorem Stands.executeAll {failure? : Option Failure} (stands : m.Stands failure? k s)
    (untimed : m.settings.budget = none) (fuel : Nat) (attempts : List Attempt) :
    m.executeAll (fuel + 1) s attempts =
      some (attempts.mapIdx fun n attempt =>
        attempt.ending failure? { s with steps := s.steps + (n + 1) * k }) := by
  induction attempts generalizing s with
  | nil => rfl
  | cons attempt attempts ih =>
    have state : (attempt.ending failure? { s with steps := s.steps + k }).scene.state =
        { s with steps := s.steps + k } := by
      cases failure? <;> rfl
    -- The machine stands whatever it has counted, so it stands for the rest of the attempts too.
    have next : m.Stands failure? k { s with steps := s.steps + k } := stands
    rw [Machine.executeAll, stands.execute untimed, List.mapIdx_cons]
    simp only [Option.bind_eq_bind, Option.bind_some, state, ih next]
    have count (n : Nat) : s.steps + k + (n + 1) * k = s.steps + (n + 1 + 1) * k := by
      rw [Nat.succ_mul (n + 1)]
      omega
    simp only [count, Nat.zero_add, Nat.one_mul]
    rfl

theorem perform_halt (m : Machine) (pc : Nat) (i : Instruction) (t : Store) :
    (m.perform pc i).Leads t (fun flow _ => flow = .halt → i = .nullary .halt)
      (fun _ _ => True) := by
  cases i with
  | load dst src => simp [perform]
  | store value address => simp [perform]
  | pop dst => simp [perform]
  | unary op o => cases op <;> simp [perform, performUnary]
  | nullary op =>
    cases op with
    | arith op =>
      simp only [perform, performNullary, Action.leads_bind, Action.leads_get]
      split <;> simp
    | _ => simp [perform, performNullary]

theorem stands_of_halts (halts : m.turn scene = .halts left) : m.Stands none 1 left.state := by
  rw [turn_eq] at halts
  split at halts
  · cases halts
  · cases halts
  · cases halts
  · rename_i i found
    have last : i = .nullary .halt := by
      rw [carryOut] at halts
      cases performed : m.perform scene.state.pc i scene.state.store with
      | error cause store =>
        rw [performed] at halts
        cases halts
      | ok flow store =>
        rw [performed] at halts
        refine (m.perform_halt _ _ _).of_ok performed ?_
        cases flow with
        | halt => rfl
        | next => cases halts
        | jump line => cases halts
        | emit channel text =>
          simp only [follow] at halts
          split at halts <;> cases halts
    subst last
    cases halts
    intro steps streams
    rw [turn_eq, found]
    rfl

theorem stepsCounted_of_perform {pc : Nat} {i : Instruction} {cause : Cause} {t u : Store}
    (failed : m.perform pc i t = .error cause u) : cause.stepsCounted = 1 := by
  have own := (m.perform_cause pc i t).of_error failed
  cases cause with
  | undecodable error => exact own.elim
  | endOfProgram => exact own.elim
  | _ => rfl

theorem stands_of_fails (covers : scene.state.store.memory.Covers m.window)
    (fails : m.turn scene = .fails failure left)
    (written : ∀ reason, failure.cause ≠ .output reason)
    (early : ∀ o line t, m.program.decoded? scene.state.pc = some (.ok (some (.unary .ret o))) →
      Action.pop m.window scene.state.store ≠ .ok line t) :
    m.Stands (some failure) failure.cause.stepsCounted left.state := by
  rw [turn_eq] at fails
  split at fails
  · rename_i missing
    cases fails
    intro steps streams
    rw [turn_eq, missing]
    rfl
  · rename_i error found
    cases fails
    intro steps streams
    rw [turn_eq, found]
    rfl
  · cases fails
  · rename_i i found
    obtain ⟨pc, aftermath⟩ := carryOut_aftermath covers fails
    have same : left.state.store = scene.state.store := by
      generalize failure.cause = cause at aftermath
      cases aftermath with
      | untouched _ same => exact same.1
      | stray takes _ => exact (early _ _ _ found takes).elim
      | discarding takes _ _ _ => exact (early _ _ _ found takes).elim
    obtain ⟨store, failed, rfl⟩ | refused := carryOut_eq_fails fails
    · have kept : store = scene.state.store := same
      rw [kept] at failed ⊢
      intro steps streams
      have here : failure = ⟨scene.state.pc, failure.cause⟩ := by
        rw [← (turn_eq_fails ((turn_of_instruction found).trans fails)).1]
      rw [stepsCounted_of_perform failed, here, turn_eq, found]
      simp only [carryOut, failed, Turn.stop]
    · exact (written _ refused).elim

/-- The execution ends in the failure of a return that has taken its line from the stack. -/
def FailsReturning (m : Machine) (clock : Clock) (s : State) (streams : Streams) : Prop :=
  ∃ n head o line t, LoopHead m clock ⟨s, streams⟩ n head ∧
    (∃ failure left, m.turn head = .fails failure left) ∧
    m.program.decoded? head.state.pc = some (.ok (some (.unary .ret o))) ∧
    Action.pop m.window head.state.store = .ok line t

/-- Without a limit of time, a machine that has halted halts again by every further execution, one
step later each time, and does nothing else. A machine that has failed fails again with the same line
and cause, and does nothing but to count the step, if its line holds an instruction. Left out are a
text that was not written in full and a return that has taken its line. -/
theorem ended_runs_stay_ended (m : Machine) (untimed : m.settings.budget = none) (s : State)
    (reached : Reachable m s) (clock : Clock) (fuel : Nat) (streams : Streams) (ending : Ending)
    (run : m.execute clock fuel s streams = some ending) (attempts : List Attempt) (again : Nat) :
    let left := ending.scene.state
    (∀ summary, ending.result = .ok summary →
      m.executeAll (again + 1) left attempts = some (attempts.mapIdx fun k attempt =>
        ⟨.ok { steps := summary.steps + (k + 1), elapsed := attempt.clock 1 },
          ⟨{ left with steps := left.steps + (k + 1) }, attempt.streams⟩⟩)) ∧
    ∀ failure, ending.result = .error failure → (∀ reason, failure.cause ≠ .output reason) →
      ¬m.FailsReturning clock s streams →
        m.executeAll (again + 1) left attempts = some (attempts.mapIdx fun k attempt =>
          ⟨.error failure,
            ⟨{ left with steps := left.steps + (k + 1) * failure.cause.stepsCounted },
              attempt.streams⟩⟩) := by
  obtain ⟨n, head, -, passed, ends⟩ := execute_eq_some_iff.mp run
  rw [advance_of_no_budget untimed] at ends
  refine ⟨?_, ?_⟩
  · intro summary done
    cases turn : m.turn head with
    | goes next => rw [turn] at ends; cases ends
    | fails failure left => rw [turn] at ends; cases ends; cases done
    | halts left =>
      rw [turn] at ends
      cases ends
      cases done
      have endings := (stands_of_halts turn).executeAll untimed again attempts
      simp only [Nat.mul_one] at endings
      exact endings
  · intro failure failed written other
    obtain ⟨result, left⟩ := ending
    cases failed
    have fails := Turn.ending?_eq_error_iff.mp ends
    have early : ∀ o line t,
        m.program.decoded? head.state.pc = some (.ok (some (.unary .ret o))) →
          Action.pop m.window head.state.store ≠ .ok line t :=
      fun o line t found takes => other ⟨n, head, o, line, t, passed, ⟨_, _, fails⟩, found, takes⟩
    have stands := stands_of_fails (passed.covers reached) fails written early
    exact stands.executeAll untimed again attempts

def emptyReturn : Machine :=
  ofLines #["RET 0"] { window := ⟨5, 6⟩ }

theorem ended_runs_stay_ended_on_empty_stack :
    ∃ s, Reachable emptyReturn s ∧ s.steps = 1 ∧
      emptyReturn.executeAll 1 s [⟨fun _ => ⟨0⟩, {}⟩, ⟨fun _ => ⟨9⟩, { out := { limit := some 0 } }⟩] =
        some [⟨.error ⟨1, .stackUnderflow 6⟩, ⟨{ s with steps := 2 }, {}⟩⟩,
          ⟨.error ⟨1, .stackUnderflow 6⟩,
            ⟨{ s with steps := 3 }, { out := { limit := some 0 } }⟩⟩] := by
  have run : emptyReturn.execute (fun _ => ⟨0⟩) 1 emptyReturn.initial {} =
      some ⟨.error ⟨1, .stackUnderflow 6⟩, ⟨{ emptyReturn.initial with steps := 1 }, {}⟩⟩ := rfl
  have early : ¬emptyReturn.FailsReturning (fun _ => ⟨0⟩) emptyReturn.initial {} := by
    rintro ⟨n, head, o, line, t, passed, -, -, takes⟩
    have first : head = ⟨emptyReturn.initial, {}⟩ := by
      clear takes
      induction passed with
      | start => rfl
      | goes _ step ih =>
        rw [ih] at step
        cases step
    rw [first] at takes
    cases takes
  have stays := ended_runs_stay_ended emptyReturn rfl _ .initial _ 1 {} _ run
  exact ⟨_, Reachable.initial.execute run, rfl, (stays _ 0).2 _ rfl (by simp) early⟩

end Machine

end RegisterMachine
