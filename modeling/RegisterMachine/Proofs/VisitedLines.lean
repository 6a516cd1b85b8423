import RegisterMachine.Proofs.Simulation

/-! The lines that a run looks at. A program takes part in a run by its line at every loop head, by
its length where a jump is checked, and by the current line in a dump. So a run that does not leave
the program is also the run of any program that is at least as long and has the same lines where the
run looks, whatever its other lines are. -/

namespace RegisterMachine

/-- The run was to go on at a line that the program does not have. -/
def Cause.LeavesProgram : Cause → Prop
  | .jumpOutside _ | .endOfProgram => True
  | _ => False

namespace Program

variable {p p' : Program}

theorem target?_of_longer (longer : p.size ≤ p'.size) {w : Word} {n : Nat}
    (found : p.target? w = some n) : p'.target? w = some n := by
  rw [target?] at found ⊢
  split at found
  · rename_i inside
    have inside' : 1 ≤ w.toInt ∧ w.toInt ≤ p'.size := by omega
    rw [if_pos inside']
    exact found
  · cases found

end Program

namespace Action

variable {p p' : Program}

theorem target_longer (longer : p.size ≤ p'.size) (x : Word) (s : Store) :
    Matches Eq Eq Cause.LeavesProgram (target p x) (target p' x) s s := by
  rw [Matches, leads_target]
  refine ⟨fun line found => ⟨line, s, ?_, rfl, rfl⟩, fun _ => .inl trivial⟩
  rw [target, Program.target?_of_longer longer found]

theorem jump_longer (longer : p.size ≤ p'.size) (o : Operand) (s : Store) :
    Matches Eq Eq Cause.LeavesProgram
      (do return Flow.jump (← target p (← value o)))
      (do return Flow.jump (← target p' (← value o))) s s := by
  refine (Matches.refl (fun _ => rfl) (value o) s).bind_same fun x s t same => ?_
  subst same
  refine (target_longer longer x s).bind_same fun line s t same => ?_
  exact .pure rfl same

end Action

namespace Machine

open RegisterMachine.Action

variable {p p' : Program} {settings : Settings}

section Step

variable (longer : p.size ≤ p'.size)
include longer

theorem performUnary_longer (pc : Nat) (o : Operand) (op : Unary) (s : Store) :
    Action.Matches Eq Eq Cause.LeavesProgram
      ((⟨p, settings⟩ : Machine).performUnary pc o op)
      ((⟨p', settings⟩ : Machine).performUnary pc o op) s s := by
  cases op with
  | push => exact .refl (fun _ => rfl) _ s
  | jmp => exact jump_longer longer o s
  | jpc =>
    refine (Matches.get rfl).bind_same fun a s t same => ?_
    subst same
    exact .ite Iff.rfl (fun _ => jump_longer longer o s) fun _ => .pure rfl rfl
  | call =>
    refine (Matches.refl (fun _ => rfl) (value o) s).bind_same fun x s t same => ?_
    subst same
    refine (target_longer longer x s).bind_same fun line s t same => ?_
    subst same
    exact .refl (fun _ => rfl) _ s
  | ret =>
    refine (Matches.refl (fun _ => rfl) (pop settings.window) s).bind_same fun x s t same => ?_
    subst same
    refine (target_longer longer x s).bind_same fun line s t same => ?_
    subst same
    exact .refl (fun _ => rfl) _ s
  | print => exact .refl (fun _ => rfl) _ s

theorem perform_longer (settings : Settings) {pc : Nat} (same : p.line? pc = p'.line? pc)
    (i : Instruction) (s : Store) :
    Action.Matches Eq Eq Cause.LeavesProgram
      ((⟨p, settings⟩ : Machine).perform pc i) ((⟨p', settings⟩ : Machine).perform pc i) s s := by
  cases i with
  | load dst src => exact .refl (fun _ => rfl) _ s
  | store value address => exact .refl (fun _ => rfl) _ s
  | pop dst => exact .refl (fun _ => rfl) _ s
  | unary op o => exact performUnary_longer longer pc o op s
  | nullary op =>
    cases op with
    | debug =>
      have shown : Snapshot.currentText p pc = Snapshot.currentText p' pc := by
        rw [Snapshot.currentText, Snapshot.currentText, same]
      refine (Matches.get rfl).bind_same fun a s t same => .pure ?_ same
      simp only [Snapshot.take, shown]
      rfl
    | _ => exact .refl (fun _ => rfl) _ s

theorem turn_longer {scene : Scene}
    (same : ∀ text, p.line? scene.state.pc = some text → p'.line? scene.state.pc = some text) :
    (∃ failure left, (⟨p, settings⟩ : Machine).turn scene = .fails failure left ∧
        failure.cause.LeavesProgram) ∨
      (⟨p', settings⟩ : Machine).turn scene = (⟨p, settings⟩ : Machine).turn scene := by
  cases here : p.line? scene.state.pc with
  | none =>
    have missing : p.decoded? scene.state.pc = none := by rw [Program.decoded?, here]; rfl
    refine .inl ⟨⟨scene.state.pc, .endOfProgram⟩, scene, ?_, trivial⟩
    rw [turn_eq, missing]
  | some text =>
    have there := same text here
    have decodes : p.decoded? scene.state.pc = some (Instruction.decode text) := by
      rw [Program.decoded?, here]; rfl
    have decodes' : p'.decoded? scene.state.pc = some (Instruction.decode text) := by
      rw [Program.decoded?, there]; rfl
    rw [turn_eq, turn_eq, decodes, decodes']
    cases Instruction.decode text with
    | error e => exact .inr rfl
    | ok i =>
      cases i with
      | none => exact .inr rfl
      | some i =>
        have performs := perform_longer longer settings (here.trans there.symm) i scene.state.store
        dsimp only
        rw [carryOut, carryOut]
        cases performed : (⟨p, settings⟩ : Machine).perform scene.state.pc i scene.state.store with
        | ok flow s =>
          obtain ⟨_, _, performed', rfl, rfl⟩ := performs.of_ok performed
          rw [performed']
          exact .inr rfl
        | error cause s =>
          rcases performs.of_error performed with outside | ⟨_, performed', rfl⟩
          · exact .inl ⟨_, _, rfl, outside⟩
          · rw [performed']
            exact .inr rfl

end Step

/-- The numbers of the lines that the first turns of a run fetch, in order, the next look at the clock
being the one of number `look`. -/
def fetchesFrom (m : Machine) (clock : Clock) : Nat → Nat → Scene → List Nat
  | 0, _, _ => []
  | turns + 1, look, scene =>
    match m.expired? (clock look) with
    | some _ => []
    | none =>
      match m.turn scene with
      | .goes next => scene.state.pc :: m.fetchesFrom clock turns (look + 1) next
      | .halts _ | .fails _ _ => [scene.state.pc]

def fetches (m : Machine) (clock : Clock) (turns : Nat) (s : State) (streams : Streams) : List Nat :=
  m.fetchesFrom clock turns 0 ⟨s, streams⟩

theorem fetchesFrom_succ {m : Machine} (untimed : m.settings.budget = none) (clock : Clock)
    (turns look : Nat) (scene : Scene) :
    m.fetchesFrom clock (turns + 1) look scene =
      scene.state.pc ::
        match m.turn scene with
        | .goes next => m.fetchesFrom clock turns (look + 1) next
        | .halts _ | .fails _ _ => [] := by
  have early : m.expired? (clock look) = none := by rw [expired?, untimed]; rfl
  rw [fetchesFrom, early]
  cases m.turn scene <;> rfl

theorem Simulates.fetchesFrom_eq {m m' : Machine} {R : Scene → Scene → Prop} {view : Cause → Cause}
    (sim : Simulates m m' R view fun _ => False)
    (lines : ∀ a b, R a b → a.state.pc = b.state.pc) (clock clock' : Clock) (turns look : Nat)
    {a b : Scene} (related : R a b) :
    m.fetchesFrom clock turns look a = m'.fetchesFrom clock' turns look b := by
  induction turns generalizing look a b with
  | zero => rfl
  | succ turns ih =>
    rw [fetchesFrom_succ sim.untimed, fetchesFrom_succ sim.untimed', lines a b related]
    have turns := sim.turn a b related
    cases first : m.turn a with
    | goes next =>
      rw [first] at turns
      obtain ⟨next', second, related'⟩ := turns.of_goes
      rw [second]
      exact congrArg _ (ih (look + 1) related')
    | halts left =>
      rw [first] at turns
      cases second : m'.turn b with
      | goes next' => rw [second] at turns; exact turns.elim
      | halts left' => rfl
      | fails failure left' => rfl
    | fails failure left =>
      rw [first] at turns
      obtain none_excused | ⟨failure', left', second, -⟩ := turns
      · exact none_excused.elim
      · rw [second]

theorem steps_follow (store : Store) (pc steps : Nat) (streams : Streams) (flow : Flow) :
    (follow store pc steps streams flow).scene.state.steps = steps := by
  cases flow with
  | emit channel text =>
    rw [follow]
    split <;> rfl
  | _ => rfl

theorem steps_turn (m : Machine) (scene : Scene) :
    (m.turn scene).scene.state.steps =
      scene.state.steps + if m.program.isInstruction scene.state.pc then 1 else 0 := by
  rw [turn_eq, Program.isInstruction]
  cases m.program.decoded? scene.state.pc with
  | none => rfl
  | some line =>
    cases line with
    | error e => rfl
    | ok i =>
      cases i with
      | none => rfl
      | some i =>
        dsimp only
        rw [carryOut]
        cases m.perform scene.state.pc i scene.state.store with
        | error cause store => rfl
        | ok flow store => exact steps_follow _ _ _ _ _

theorem steps_executeFrom {m : Machine} {clock : Clock} {fuel look : Nat} {scene : Scene} {ending : Ending}
    (run : m.executeFrom clock fuel look scene = some ending) :
    ending.scene.state.steps =
      scene.state.steps + (m.fetchesFrom clock fuel look scene).countP m.program.isInstruction := by
  induction fuel generalizing look scene with
  | zero => cases run
  | succ fuel ih =>
    have counted := m.steps_turn scene
    rw [executeFrom, advance] at run
    rw [fetchesFrom]
    cases late : m.expired? (clock look) with
    | some budget =>
      rw [late] at run
      cases run
      rfl
    | none =>
      rw [late] at run
      dsimp only at run ⊢
      cases turn : m.turn scene with
      | goes next =>
        rw [turn] at run counted
        have counted : next.state.steps = _ := counted
        dsimp only at run ⊢
        rw [ih run, counted, List.countP_cons]
        omega
      | halts left =>
        rw [turn] at run counted
        cases run
        rw [List.countP_singleton]
        exact counted
      | fails failure left =>
        rw [turn] at run counted
        cases run
        rw [List.countP_singleton]
        exact counted

section Run

variable {w : Window}

theorem ending?_of_executeFrom {m : Machine} {clock : Clock} {fuel look : Nat} {scene : Scene}
    {ending : Ending} (run : m.executeFrom clock (fuel + 1) look scene = some ending)
    (ends : ∀ next, m.advance (clock look) scene ≠ .goes next) :
    (m.advance (clock look) scene).ending? (clock (look + 1)) = some ending := by
  rw [executeFrom] at run
  cases step : m.advance (clock look) scene with
  | goes next => exact (ends next step).elim
  | halts left => rwa [step] at run
  | fails failure left => rwa [step] at run

theorem executeFrom_longer (longer : p.size ≤ p'.size) (clock clock' : Clock) {fuel look : Nat}
    {scene : Scene} {ending : Ending}
    (run : (⟨p, ⟨w, none⟩⟩ : Machine).executeFrom clock fuel look scene = some ending)
    (stays : ∀ failure, ending.failure? = some failure → ¬failure.cause.LeavesProgram)
    (same : ∀ n ∈ (⟨p, ⟨w, none⟩⟩ : Machine).fetchesFrom clock fuel look scene,
      ∀ text, p.line? n = some text → p'.line? n = some text) :
    ∃ ending', (⟨p', ⟨w, none⟩⟩ : Machine).executeFrom clock' fuel look scene = some ending' ∧
      ending'.outcome = ending.outcome ∧ ending'.scene = ending.scene := by
  induction fuel generalizing look scene with
  | zero => cases run
  | succ fuel ih =>
    rw [fetchesFrom_succ rfl] at same
    have now (q : Program) (c : Clock) : advance ⟨q, ⟨w, none⟩⟩ (c look) scene =
        turn ⟨q, ⟨w, none⟩⟩ scene := advance_of_no_budget rfl _ scene
    by_cases goes : ∃ next, turn ⟨p, ⟨w, none⟩⟩ scene = .goes next
    · obtain ⟨next, goes⟩ := goes
      have goes' : turn ⟨p', ⟨w, none⟩⟩ scene = .goes next := by
        rcases turn_longer longer (same _ List.mem_cons_self) with ⟨_, _, fails, -⟩ | turns
        · rw [goes] at fails
          cases fails
        · rw [turns, goes]
      rw [goes] at same
      rw [executeFrom_of_goes ((now p clock).trans goes)] at run
      rw [executeFrom_of_goes ((now p' clock').trans goes')]
      exact ih run fun n fetched => same n (List.mem_cons_of_mem _ fetched)
    · have ends := ending?_of_executeFrom run fun next => by
        rw [now]
        exact not_exists.mp goes next
      rw [now] at ends
      rcases turn_longer longer (same _ List.mem_cons_self) with ⟨failure, left, fails, outside⟩ | turns
      · -- The run ends here for the reason that is ruled out.
        rw [fails] at ends
        cases ends
        exact (stays failure rfl outside).elim
      · rw [← turns, ← now p' clock'] at ends
        obtain ⟨ending', ends', alike⟩ := Turn.ending?_of_other_clock ends (clock' (look + 1))
        exact ⟨ending', executeFrom_of_ending? ends' fuel, alike⟩

/-- A run that ends without leaving its program depends on no line but those it fetches. Every
program that is at least as long and has the same text on these lines runs to the same outcome and
leaves the same state, output and dumps. -/
theorem only_fetched_lines_matter (p p' : Program) (longer : p.size ≤ p'.size) (w : Window)
    (clock clock' : Clock) (fuel : Nat) (s : State) (streams : Streams) (ending : Ending)
    (run : (⟨p, ⟨w, none⟩⟩ : Machine).execute clock fuel s streams = some ending)
    (stays : ∀ failure, ending.outcome = .error failure →
      (∀ target, failure.cause ≠ .jumpOutside target) ∧ failure.cause ≠ .endOfProgram)
    (same : ∀ n ∈ (⟨p, ⟨w, none⟩⟩ : Machine).fetches clock fuel s streams,
      ∀ text, p.line? n = some text → p'.line? n = some text) :
    ∃ ending', (⟨p', ⟨w, none⟩⟩ : Machine).execute clock' fuel s streams = some ending' ∧
      ending'.outcome = ending.outcome ∧ ending'.scene = ending.scene := by
  refine executeFrom_longer longer clock clock' run (fun failure failed => ?_) same
  have outcome := outcome_of_execute run
  rw [failed] at outcome
  obtain ⟨inside, found⟩ := stays failure outcome
  cases cause : failure.cause with
  | jumpOutside target => exact (inside target cause).elim
  | endOfProgram => exact (found cause).elim
  | _ => exact id

def detour : Machine :=
  ofLines #["JMP 3", "no line to run", "@", "PRINT 7/"]

def longerDetour : Machine :=
  ofLines #["JMP 3", "END", "@", "PRINT 7/", "END", "?"]

theorem only_fetched_lines_matter_of_detour :
    detour.fetches (fun _ => ⟨0⟩) 9 detour.initial {} = [1, 3, 4] ∧
      ∃ ending, longerDetour.execute (fun _ => ⟨0⟩) 9 longerDetour.initial {} = some ending ∧
        ending.outcome = .error ⟨4, .undecodable (.unknownRegister "7/")⟩ ∧
        ending.scene.state = ⟨detour.initial.store, 4, 2⟩ := by
  have seen : (detour.execute (fun _ => ⟨0⟩) 9 detour.initial {}).map
      (fun e => (e.outcome, e.scene.state)) =
        some (.error ⟨4, .undecodable (.unknownRegister "7/")⟩, ⟨detour.initial.store, 4, 2⟩) := rfl
  have same : ∀ n ∈ detour.fetches (fun _ => ⟨0⟩) 9 detour.initial {}, ∀ text,
      detour.program.line? n = some text → longerDetour.program.line? n = some text := by decide
  obtain ⟨whole, run, shown⟩ := Option.map_eq_some_iff.mp seen
  obtain ⟨outcome, state⟩ := Prod.mk.inj shown
  have stays : ∀ failure, whole.outcome = .error failure →
      (∀ target, failure.cause ≠ .jumpOutside target) ∧ failure.cause ≠ .endOfProgram := by
    rw [outcome]
    rintro failure ⟨⟩
    simp
  obtain ⟨ending, ends, outcome', scene⟩ :=
    only_fetched_lines_matter detour.program longerDetour.program (by decide) detour.window _
      (fun _ => ⟨0⟩) _ _ _ _ run stays same
  exact ⟨rfl, ending, ends, outcome'.trans outcome, by rw [scene, state]⟩

end Run

end Machine

end RegisterMachine
