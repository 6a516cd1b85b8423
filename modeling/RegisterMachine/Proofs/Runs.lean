import RegisterMachine.Machine.Execution

/-! Runs seen from their loop heads. A run is at a loop head before every look at the clock, and an
execution is a chain of loop heads with the turn that ends it. A machine may be executed again from
the state that an execution has left, with another clock and other streams. -/

namespace RegisterMachine

namespace Turn

/-- The scene that the turn leads to, whether or not the run goes on from it. -/
def scene : Turn → Scene
  | .goes scene => scene
  | .halts scene => scene
  | .fails _ scene => scene

def ending? (elapsed : Duration) : Turn → Option Ending
  | .goes _ => none
  | .halts scene => some ⟨.ok { steps := scene.state.steps, elapsed }, scene⟩
  | .fails failure scene => some ⟨.error failure, scene⟩

theorem ending?_eq_error_iff {elapsed : Duration} {turn : Turn} {failure : Failure} {scene : Scene} :
    turn.ending? elapsed = some ⟨.error failure, scene⟩ ↔ turn = .fails failure scene := by
  cases turn <;> simp [ending?]

theorem scene_of_ending? {elapsed : Duration} {turn : Turn} {ending : Ending}
    (ends : turn.ending? elapsed = some ending) : turn.scene = ending.scene := by
  cases turn with
  | goes scene => cases ends
  | halts scene => cases ends; rfl
  | fails failure scene => cases ends; rfl

end Turn

namespace Machine

variable {m : Machine} {clock : Clock} {start scene : Scene} {n : Nat}

def ofLines (lines : Array String) (settings : Settings := {}) : Machine :=
  { program := { lines }, settings }

/-- The scene at the loop head of number `n`, counted from 0, of a run from `start`. -/
inductive LoopHead (m : Machine) (clock : Clock) (start : Scene) : Nat → Scene → Prop where
  | start : LoopHead m clock start 0 start
  | goes {n : Nat} {scene next : Scene} : LoopHead m clock start n scene →
      m.advance (clock n) scene = .goes next → LoopHead m clock start (n + 1) next

/-- The states that a machine is left in by any number of executions, the first of which starts from
the initial state. -/
inductive Reachable (m : Machine) : State → Prop where
  | initial : Reachable m m.initial
  | execute {clock : Clock} {fuel : Nat} {s : State} {streams : Streams} {ending : Ending} :
      Reachable m s → m.execute clock fuel s streams = some ending →
      Reachable m ending.scene.state

theorem executeFrom_of_goes {next : Scene} (step : m.advance (clock n) scene = .goes next)
    (fuel : Nat) :
    m.executeFrom clock (fuel + 1) n scene = m.executeFrom clock fuel (n + 1) next := by
  rw [executeFrom, step]

theorem executeFrom_of_ending? {ending : Ending}
    (ends : (m.advance (clock n) scene).ending? (clock (n + 1)) = some ending) (fuel : Nat) :
    m.executeFrom clock (fuel + 1) n scene = some ending := by
  rw [executeFrom]
  cases step : m.advance (clock n) scene with
  | goes next => rw [step] at ends; cases ends
  | halts next => rwa [step] at ends
  | fails failure next => rwa [step] at ends

theorem executeFrom_shift (m : Machine) (clock : Clock) (fuel look k : Nat) (scene : Scene) :
    m.executeFrom clock fuel (look + k) scene =
      m.executeFrom (fun n => clock (n + k)) fuel look scene := by
  induction fuel generalizing look scene with
  | zero => rfl
  | succ fuel ih =>
    simp only [executeFrom, Nat.add_right_comm look k 1, ih]

theorem LoopHead.unique {other : Scene} (head : LoopHead m clock start n scene)
    (also : LoopHead m clock start n other) : scene = other := by
  induction head generalizing other with
  | start => cases also; rfl
  | goes _ step ih =>
    cases also with
    | goes before again =>
      rw [← ih before, step] at again
      exact Turn.goes.inj again

theorem LoopHead.executeFrom_eq (head : LoopHead m clock start n scene) (fuel : Nat) :
    m.executeFrom clock (n + fuel) 0 start = m.executeFrom clock fuel n scene := by
  induction head generalizing fuel with
  | start => rw [Nat.zero_add]
  | @goes n scene next _ step ih =>
    rw [show n + 1 + fuel = n + (fuel + 1) by omega, ih, executeFrom_of_goes step]

theorem LoopHead.executeFrom_inv (head : LoopHead m clock start n scene) {fuel : Nat}
    {ending : Ending} (run : m.executeFrom clock fuel n scene = some ending) :
    ∃ k last, k < n + fuel ∧ LoopHead m clock start k last ∧
      (m.advance (clock k) last).ending? (clock (k + 1)) = some ending := by
  -- Each turn takes one off the fuel and adds one to the loop head, so the bound stays.
  induction fuel generalizing n scene with
  | zero => cases run
  | succ fuel ih =>
    cases step : m.advance (clock n) scene with
    | goes next =>
      rw [executeFrom_of_goes step] at run
      obtain ⟨k, last, bound, found, ends⟩ := ih (head.goes step) run
      exact ⟨k, last, by omega, found, ends⟩
    | halts next =>
      rw [executeFrom, step] at run
      exact ⟨n, scene, by omega, head, by rw [step]; exact run⟩
    | fails failure next =>
      rw [executeFrom, step] at run
      exact ⟨n, scene, by omega, head, by rw [step]; exact run⟩

theorem execute_eq_some_iff {fuel : Nat} {s : State} {streams : Streams} {ending : Ending} :
    m.execute clock fuel s streams = some ending ↔
      ∃ n scene, n < fuel ∧ LoopHead m clock ⟨s, streams⟩ n scene ∧
        (m.advance (clock n) scene).ending? (clock (n + 1)) = some ending := by
  constructor
  · intro run
    obtain ⟨n, scene, bound, head, ends⟩ := LoopHead.start.executeFrom_inv run
    exact ⟨n, scene, by omega, head, ends⟩
  · rintro ⟨n, scene, bound, head, ends⟩
    obtain ⟨rest, rfl⟩ : ∃ rest, fuel = n + (rest + 1) := ⟨fuel - n - 1, by omega⟩
    rw [execute, head.executeFrom_eq, executeFrom_of_ending? ends]

theorem LoopHead.exists_of_executeFrom (head : LoopHead m clock start n scene) {fuel : Nat}
    (runs : m.executeFrom clock fuel n scene = none) :
    ∃ later, LoopHead m clock start (n + fuel) later := by
  induction fuel generalizing n scene with
  | zero => exact ⟨scene, head⟩
  | succ fuel ih =>
    cases step : m.advance (clock n) scene with
    | goes next =>
      rw [executeFrom_of_goes step] at runs
      obtain ⟨later, found⟩ := ih (head.goes step) runs
      rw [show n + (fuel + 1) = n + 1 + fuel by omega]
      exact ⟨later, found⟩
    | halts next => rw [executeFrom, step] at runs; cases runs
    | fails failure next => rw [executeFrom, step] at runs; cases runs

theorem execute_eq_none_iff {fuel : Nat} {s : State} {streams : Streams} :
    m.execute clock fuel s streams = none ↔ ∃ scene, LoopHead m clock ⟨s, streams⟩ fuel scene := by
  constructor
  · intro runs
    obtain ⟨later, found⟩ := LoopHead.start.exists_of_executeFrom runs
    rw [Nat.zero_add] at found
    exact ⟨later, found⟩
  · rintro ⟨scene, head⟩
    exact head.executeFrom_eq 0

theorem advance_of_expired {elapsed budget : Duration} (late : m.expired? elapsed = some budget) :
    m.advance elapsed scene = .fails ⟨scene.state.pc, .timeout budget⟩ scene := by
  rw [advance, late]

theorem advance_of_unexpired {elapsed : Duration} (early : m.expired? elapsed = none) :
    m.advance elapsed scene = m.turn scene := by
  rw [advance, early]

theorem turn_of_advance_goes {elapsed : Duration} {next : Scene}
    (goes : m.advance elapsed scene = .goes next) : m.turn scene = .goes next := by
  cases late : m.expired? elapsed with
  | some budget =>
    rw [advance_of_expired late] at goes
    cases goes
  | none => rwa [advance_of_unexpired late] at goes

theorem execute_eq_error {fuel : Nat} {s : State} {streams : Streams} {failure : Failure}
    (run : m.execute clock fuel s streams = some ⟨.error failure, scene⟩) :
    ∃ n head, n < fuel ∧ LoopHead m clock ⟨s, streams⟩ n head ∧
      ((∃ budget, m.expired? (clock n) = some budget ∧
          failure = ⟨head.state.pc, .timeout budget⟩ ∧ scene = head) ∨
        (m.expired? (clock n) = none ∧ m.turn head = .fails failure scene)) := by
  obtain ⟨n, head, bound, passed, ends⟩ := execute_eq_some_iff.mp run
  refine ⟨n, head, bound, passed, ?_⟩
  rw [Turn.ending?_eq_error_iff] at ends
  cases late : m.expired? (clock n) with
  | some budget =>
    rw [advance_of_expired late] at ends
    cases ends
    exact .inl ⟨budget, rfl, rfl, rfl⟩
  | none =>
    rw [advance_of_unexpired late] at ends
    exact .inr ⟨rfl, ends⟩

theorem LoopHead.execute_of_fails {fuel : Nat} {s : State} {streams : Streams} {failure : Failure}
    {left : Scene} (head : LoopHead m clock ⟨s, streams⟩ n scene) (bound : n < fuel)
    (early : m.expired? (clock n) = none) (fails : m.turn scene = .fails failure left) :
    m.execute clock fuel s streams = some ⟨.error failure, left⟩ := by
  refine execute_eq_some_iff.mpr ⟨n, scene, bound, head, ?_⟩
  rw [advance_of_unexpired early, fails]
  rfl

section Invariants

variable {P : State → Prop} (kept : ∀ scene, P scene.state → P (m.turn scene).scene.state)
include kept

theorem advance_invariant (elapsed : Duration) (holds : P scene.state) :
    P (m.advance elapsed scene).scene.state := by
  cases late : m.expired? elapsed with
  | some budget =>
    rw [advance_of_expired late]
    exact holds
  | none =>
    rw [advance_of_unexpired late]
    exact kept scene holds

theorem LoopHead.invariant (head : LoopHead m clock start n scene) (holds : P start.state) :
    P scene.state := by
  induction head with
  | start => exact holds
  | @goes n scene next _ step ih =>
    have after := advance_invariant kept (clock n) ih
    rwa [step] at after

theorem Reachable.invariant (initially : P m.initial) {s : State} (reached : Reachable m s) :
    P s := by
  induction reached with
  | initial => exact initially
  | @execute clock fuel s streams ending _ run ih =>
    obtain ⟨n, head, -, passed, ends⟩ := execute_eq_some_iff.mp run
    rw [← Turn.scene_of_ending? ends]
    exact advance_invariant kept (clock n) (passed.invariant kept ih)

end Invariants

end Machine

end RegisterMachine
