import RegisterMachine.Proofs.Turns

/-! Time that runs out. A machine that is stopped by its clock stands at a loop head of the run that
has all the time it needs, and executing it again goes on from there as if nothing had happened. -/

namespace RegisterMachine

namespace Ending

/-- The failure, or the number of steps to the end; the time that was needed is left out. -/
def outcome (e : Ending) : Except Failure Nat :=
  e.result.map Summary.steps

def isTimeout (e : Ending) : Bool :=
  match e.result with
  | .error ⟨_, .timeout _⟩ => true
  | _ => false

end Ending

theorem Turn.ending?_of_other_clock {turn : Turn} {elapsed : Duration} {ending : Ending}
    (ends : turn.ending? elapsed = some ending) (other : Duration) :
    ∃ same, turn.ending? other = some same ∧ same.outcome = ending.outcome ∧
      same.scene = ending.scene := by
  cases turn with
  | goes scene => cases ends
  | halts scene =>
    cases ends
    exact ⟨_, rfl, rfl, rfl⟩
  | fails failure scene =>
    cases ends
    exact ⟨_, rfl, rfl, rfl⟩

namespace Machine

variable {m : Machine} {clock : Clock} {start scene left : Scene} {n : Nat} {ending : Ending}

def untimed (m : Machine) : Machine :=
  { m with settings := { m.settings with budget := none } }

theorem advance_untimed (m : Machine) (elapsed : Duration) (scene : Scene) :
    m.untimed.advance elapsed scene = m.turn scene := rfl

theorem LoopHead.untimed (head : LoopHead m clock start n scene) (other : Clock) :
    LoopHead m.untimed other start n scene := by
  induction head with
  | start => exact .start
  | @goes n scene next _ step ih =>
    refine ih.goes ?_
    cases late : m.expired? (clock n) with
    | some budget =>
      rw [advance_of_expired late] at step
      cases step
    | none =>
      rw [advance_of_unexpired late] at step
      rw [advance_untimed, step]

/-- Executing the machine again whenever its time is over, from where it was left and on the same
streams, comes to this ending. -/
inductive Resumes (m : Machine) : Scene → Ending → Prop where
  | ends {clock : Clock} {fuel : Nat} {scene : Scene} {ending : Ending} :
      m.execute clock fuel scene.state scene.streams = some ending →
      ending.isTimeout = false → Resumes m scene ending
  | again {clock : Clock} {fuel line : Nat} {budget : Duration} {scene left : Scene}
      {ending : Ending} :
      m.execute clock fuel scene.state scene.streams =
        some ⟨.error ⟨line, .timeout budget⟩, left⟩ →
      Resumes m left ending → Resumes m scene ending

theorem exists_clock {budget : Duration} (timed : m.settings.budget = some budget)
    (answers : Nat → Bool) :
    ∃ clock : Clock, ∀ n, (m.expired? (clock n)).isSome = answers n := by
  refine ⟨fun n => if answers n then ⟨budget.nanoseconds + 1⟩ else budget, fun n => ?_⟩
  cases answer : answers n <;> simp [expired?, timed, Duration.exceeds, answer, Option.filter]

theorem loopHead_of_timeout {fuel line : Nat} {budget : Duration} {s : State} {streams : Streams}
    (run : m.execute clock fuel s streams = some ⟨.error ⟨line, .timeout budget⟩, left⟩) :
    left.state.pc = line ∧ ∃ n, ∀ other, LoopHead m.untimed other ⟨s, streams⟩ n left := by
  obtain ⟨n, head, -, passed, ⟨_, -, same, rfl⟩ | ⟨-, fails⟩⟩ := execute_eq_error run
  · cases same
    exact ⟨rfl, n, passed.untimed⟩
  · obtain ⟨-, -, can⟩ := turn_eq_fails fails
    exact (can.not_timeout budget rfl).elim

theorem untimed_of_not_timeout {fuel enough : Nat} {s : State} {streams : Streams}
    (run : m.execute clock enough s streams = some ending) (inTime : ending.isTimeout = false)
    (more : enough ≤ fuel) (other : Clock) :
    ∃ whole, m.untimed.execute other fuel s streams = some whole ∧
      whole.outcome = ending.outcome ∧ whole.scene = ending.scene := by
  obtain ⟨n, head, bound, passed, ends⟩ := execute_eq_some_iff.mp run
  cases late : m.expired? (clock n) with
  | some budget =>
    rw [advance_of_expired late] at ends
    cases ends
    cases inTime
  | none =>
    rw [advance_of_unexpired late] at ends
    obtain ⟨whole, same, outcome, scene⟩ := Turn.ending?_of_other_clock ends (other (n + 1))
    have within : n < fuel := by omega
    exact ⟨whole, execute_eq_some_iff.mpr ⟨n, head, within, passed.untimed other, same⟩,
      outcome, scene⟩

theorem Resumes.untimed (resumes : Resumes m start ending) :
    ∃ enough, ∀ fuel other, enough ≤ fuel →
      ∃ whole, m.untimed.execute other fuel start.state start.streams = some whole ∧
        whole.outcome = ending.outcome ∧ whole.scene = ending.scene := by
  induction resumes with
  | @ends clock enough scene ending run inTime =>
    exact ⟨enough, fun fuel other more => untimed_of_not_timeout run inTime more other⟩
  | @again clock fuel line budget scene left ending run _ ih =>
    obtain ⟨enough, rest⟩ := ih
    -- The whole run is past `n` loop heads where this call was stopped, and the clock of its rest
    -- is looked at from there on.
    obtain ⟨-, n, passed⟩ := loopHead_of_timeout run
    refine ⟨n + enough, fun fuel other more => ?_⟩
    obtain ⟨extra, rfl⟩ : ∃ extra, fuel = n + extra := ⟨fuel - n, by omega⟩
    obtain ⟨whole, run, same⟩ := rest extra (fun k => other (k + n)) (by omega)
    refine ⟨whole, ?_, same⟩
    rw [execute, (passed other).executeFrom_eq, ← Nat.zero_add n, executeFrom_shift]
    exact run

/-- Running out of time is transparent. The clocks give any sequence of answers; a run that is
stopped has come to a loop head of the run that is not, with the same bytes written; and executing
it again until it is no longer stopped gives the outcome and the scene of the run that is not. -/
theorem preemption_is_transparent (m : Machine) (start : Scene) :
    (∀ budget (answers : Nat → Bool), m.settings.budget = some budget →
      ∃ clock : Clock, ∀ n, (m.expired? (clock n)).isSome = answers n) ∧
    (∀ clock fuel line budget left,
      m.execute clock fuel start.state start.streams =
          some ⟨.error ⟨line, .timeout budget⟩, left⟩ →
        left.state.pc = line ∧ ∃ n, ∀ other, LoopHead m.untimed other start n left) ∧
    (∀ ending, Resumes m start ending →
      ∃ enough, ∀ fuel other, enough ≤ fuel →
        ∃ whole, m.untimed.execute other fuel start.state start.streams = some whole ∧
          whole.outcome = ending.outcome ∧ whole.scene = ending.scene) :=
  ⟨fun _ answers timed => exists_clock timed answers,
    fun _ _ _ _ _ run => loopHead_of_timeout run,
    fun _ resumes => resumes.untimed⟩

def hasty : Machine :=
  ofLines #["PRINT 7", "END"] { budget := some ⟨0⟩ }

theorem preemption_is_transparent_after_output :
    (∃ n, ∀ other, LoopHead hasty.untimed other ⟨hasty.initial, {}⟩ n
      ⟨⟨hasty.initial.store, 2, 1⟩, { out := { bytes := "7".toUTF8 } }⟩) ∧
    ∃ enough, ∀ fuel other, enough ≤ fuel →
      ∃ whole, hasty.untimed.execute other fuel hasty.initial {} = some whole ∧
        whole.outcome = .ok 2 ∧ whole.scene.streams.out.bytes = "7".toUTF8 := by
  have stopped : hasty.execute (fun n => ⟨n⟩) 9 hasty.initial {} =
      some ⟨.error ⟨2, .timeout ⟨0⟩⟩,
        ⟨⟨hasty.initial.store, 2, 1⟩, { out := { bytes := "7".toUTF8 } }⟩⟩ := rfl
  have ended : hasty.execute (fun _ => ⟨0⟩) 9 ⟨hasty.initial.store, 2, 1⟩
      { out := { bytes := "7".toUTF8 } } =
      some ⟨.ok ⟨2, ⟨0⟩⟩,
        ⟨⟨hasty.initial.store, 2, 2⟩, { out := { bytes := "7".toUTF8 } }⟩⟩ := rfl
  have transparent := preemption_is_transparent hasty ⟨hasty.initial, {}⟩
  obtain ⟨enough, whole⟩ := transparent.2.2 _ (.again stopped (.ends ended rfl))
  refine ⟨(transparent.2.1 _ _ _ _ _ stopped).2, enough, fun fuel other more => ?_⟩
  obtain ⟨final, run, outcome, scene⟩ := whole fuel other more
  exact ⟨final, run, outcome, by rw [scene]⟩

end Machine

end RegisterMachine
