import RegisterMachine.Machine

/-! Running the machine until it ends. The clock is looked at before every line, so that an
instruction that has begun is carried out in full. -/

namespace RegisterMachine

/-- What the clock shows since the start of the run, at the first look, the second, and so on. -/
abbrev Clock := Nat → Duration

structure Summary where
  steps : Nat
  elapsed : Duration
  deriving DecidableEq, Repr

structure Ending where
  result : Except Failure Summary
  scene : Scene

namespace Machine

def expired? (m : Machine) (elapsed : Duration) : Option Duration :=
  m.settings.budget.filter elapsed.exceeds

def advance (m : Machine) (elapsed : Duration) (scene : Scene) : Turn :=
  match m.expired? elapsed with
  | some budget => .fails ⟨scene.state.pc, .timeout budget⟩ scene
  | none => m.turn scene

/-- Runs the machine for at most `fuel` turns, the next look at the clock being the one of number
`look`; there is no ending while the run goes on. -/
def executeFrom (m : Machine) (clock : Clock) : Nat → Nat → Scene → Option Ending
  | 0, _, _ => none
  | fuel + 1, look, scene =>
    match m.advance (clock look) scene with
    | .goes scene => m.executeFrom clock fuel (look + 1) scene
    | .halts scene =>
        some ⟨.ok { steps := scene.state.steps, elapsed := clock (look + 1) }, scene⟩
    | .fails failure scene => some ⟨.error failure, scene⟩

def execute (m : Machine) (clock : Clock) (fuel : Nat) (s : State) (streams : Streams) :
    Option Ending :=
  m.executeFrom clock fuel 0 ⟨s, streams⟩

end Machine

end RegisterMachine
