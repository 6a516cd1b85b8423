import RegisterMachine.Proofs.Writes

/-! Memory against the log of what is written. Stores, pushes and calls write to the same cells, and
loads, pops and returns read them; whatever is read was the last to be written there, by whichever of
the three. -/

namespace RegisterMachine

def lastWritten (log : List Write) (address : Word) : Word :=
  ((log.findRev? (·.address == address)).map Write.value).getD 0

theorem lastWritten_concat (log : List Write) (e : Write) (address : Word) :
    lastWritten (log ++ [e]) address =
      if e.address = address then e.value else lastWritten log address := by
  by_cases here : e.address = address
  · simp [lastWritten, List.findRev?_eq_find?_reverse, here]
  · simp [lastWritten, List.findRev?_eq_find?_reverse, here]

/-- Every cell of the window holds what the log has last for it. -/
structure Memory.Coherent (w : Window) (log : List Write) (m : Memory) : Prop where
  covers : m.Covers w
  holds : ∀ address, w.base ≤ address → address < w.top →
    m.read? address = some (lastWritten log address)

namespace Memory.Coherent

variable {w : Window} {log : List Write} {m : Memory}

theorem zeros (w : Window) : (Memory.zeros w.base w.cells).Coherent w [] :=
  ⟨covers_zeros w, fun _ low high => read?_zeros low high⟩

theorem write (coherent : m.Coherent w log) (e : Write) :
    (m.write e.address e.value).Coherent w (log ++ [e]) := by
  refine ⟨coherent.covers.writeAll [e], fun address low high => ?_⟩
  have inside := coherent.covers.contains_iff.mpr ⟨low, high⟩
  rw [read?_write, lastWritten_concat]
  by_cases here : e.address = address
  · subst here
    simp [inside]
  · simp [here, Ne.symm here, coherent.holds address low high]

theorem writeAll (coherent : m.Coherent w log) (more : List Write) :
    (m.writeAll more).Coherent w (log ++ more) := by
  induction more generalizing m log with
  | nil => simpa using coherent
  | cons e more ih =>
    have rest := ih (coherent.write e)
    rwa [List.append_assoc] at rest

theorem eq_lastWritten (coherent : m.Coherent w log) {address x : Word}
    (found : m.read? address = some x) : x = lastWritten log address := by
  obtain ⟨low, high⟩ := coherent.covers.inside_of_read? found
  rw [coherent.holds address low high] at found
  exact (Option.some.inj found).symm

end Memory.Coherent

namespace Machine

variable {m : Machine} {clock : Clock} {start scene : Scene} {n : Nat} {log : List Write}

/-- What the first turns of a run write, in order, the next look at the clock being the one of number
`look`. A turn that ends the run writes nothing. -/
def writesFrom (m : Machine) (clock : Clock) : Nat → Nat → Scene → List Write
  | 0, _, _ => []
  | turns + 1, look, scene =>
    match m.advance (clock look) scene with
    | .goes next => (m.write? scene.state).toList ++ m.writesFrom clock turns (look + 1) next
    | .halts _ | .fails _ _ => []

def writes (m : Machine) (clock : Clock) (turns : Nat) (s : State) (streams : Streams) :
    List Write :=
  m.writesFrom clock turns 0 ⟨s, streams⟩

theorem writesFrom_of_goes {next : Scene} (step : m.advance (clock n) scene = .goes next)
    (turns : Nat) :
    m.writesFrom clock (turns + 1) n scene =
      (m.write? scene.state).toList ++ m.writesFrom clock turns (n + 1) next := by
  rw [writesFrom, step]

theorem writesFrom_of_ending? {elapsed : Duration} {ending : Ending}
    (ends : (m.advance (clock n) scene).ending? elapsed = some ending) (turns : Nat) :
    m.writesFrom clock turns n scene = [] := by
  cases turns with
  | zero => rfl
  | succ turns =>
    rw [writesFrom]
    cases step : m.advance (clock n) scene with
    | goes next => rw [step] at ends; cases ends
    | halts left => rfl
    | fails failure left => rfl

theorem LoopHead.writesFrom_add (head : LoopHead m clock start n scene) (turns : Nat) :
    m.writesFrom clock (n + turns) 0 start =
      m.writesFrom clock n 0 start ++ m.writesFrom clock turns n scene := by
  induction head generalizing turns with
  | start => simp [writesFrom]
  | @goes n scene next _ step ih =>
    have whole := ih (turns + 1)
    rw [writesFrom_of_goes step] at whole
    have first := ih 1
    rw [writesFrom_of_goes step, writesFrom, List.append_nil] at first
    rw [show n + 1 + turns = n + (turns + 1) by omega, whole, first, List.append_assoc]

theorem LoopHead.coherent (head : LoopHead m clock start n scene)
    (before : start.state.store.memory.Coherent m.window log) :
    scene.state.store.memory.Coherent m.window (log ++ m.writesFrom clock n 0 start) := by
  induction head with
  | start => simpa [writesFrom] using before
  | @goes n scene next head step ih =>
    have whole := head.writesFrom_add 1
    rw [writesFrom_of_goes step, writesFrom, List.append_nil] at whole
    rw [whole, ← List.append_assoc, memory_of_goes (turn_of_advance_goes step)]
    exact ih.writeAll _

theorem memory_of_ending? {elapsed later : Duration} {ending : Ending}
    (ends : (m.advance elapsed scene).ending? later = some ending) :
    ending.scene.state.store.memory = scene.state.store.memory := by
  rw [← Turn.scene_of_ending? ends]
  cases late : m.expired? elapsed with
  | some budget => rw [advance_of_expired late]; rfl
  | none =>
    rw [advance_of_unexpired late] at ends ⊢
    refine memory_of_ends fun next goes => ?_
    rw [goes] at ends
    cases ends

theorem execute_coherent {fuel : Nat} {s : State} {streams : Streams} {ending : Ending}
    (run : m.execute clock fuel s streams = some ending)
    (before : s.store.memory.Coherent m.window log) :
    ending.scene.state.store.memory.Coherent m.window (log ++ m.writes clock fuel s streams) := by
  obtain ⟨n, head, bound, passed, ends⟩ := execute_eq_some_iff.mp run
  obtain ⟨rest, rfl⟩ : ∃ rest, fuel = n + rest := ⟨fuel - n, by omega⟩
  rw [writes, passed.writesFrom_add, writesFrom_of_ending? ends, List.append_nil,
    memory_of_ending? ends]
  exact passed.coherent before

/-- The states that any number of executions leave, each with all that was written on the way. -/
inductive History (m : Machine) : List Write → State → Prop where
  | initial : History m [] m.initial
  | execute {clock : Clock} {fuel : Nat} {log : List Write} {s : State} {streams : Streams}
      {ending : Ending} :
      History m log s → m.execute clock fuel s streams = some ending →
      History m (log ++ m.writes clock fuel s streams) ending.scene.state

theorem Reachable.exists_history {s : State} (reached : Reachable m s) :
    ∃ log, History m log s := by
  induction reached with
  | initial => exact ⟨[], .initial⟩
  | execute _ run ih =>
    obtain ⟨log, history⟩ := ih
    exact ⟨_, history.execute run⟩

theorem History.coherent {s : State} (history : History m log s) :
    s.store.memory.Coherent m.window log := by
  induction history with
  | initial => exact .zeros m.window
  | execute _ run ih => exact execute_coherent run ih

section Readers

variable {pc : Nat} {s : Store}

theorem perform_load {src : Operand} (dst : Register) (cell : src.isBare = false) :
    (m.perform pc (.load dst src)).Leads s
      (fun _ t => s.memory.read? (src.expr.eval s.bank) = some (t.bank.get dst))
      (fun _ _ => True) := by
  simp [perform, cell, Bank.get_set]

theorem perform_pop (dst : Register) :
    (m.perform pc (.pop dst)).Leads s
      (fun _ t => s.memory.read? s.bank.sp = some (t.bank.get dst)) (fun _ _ => True) := by
  simp [perform, Bank.get_set]

theorem perform_ret (o : Operand) :
    (m.perform pc (.unary .ret o)).Leads s
      (fun flow _ => ∃ x line, s.memory.read? s.bank.sp = some x ∧
        m.program.target? x = some line ∧ flow = .jump line)
      (fun cause _ => ∀ x, cause = .jumpOutside x → s.memory.read? s.bank.sp = some x) := by
  simp only [perform, performUnary, Action.leads_bind, Action.leads_pop, Action.leads_target,
    Action.leads_value, Action.leads_discard, Action.leads_pure]
  simp +contextual

end Readers

section Turns

variable {next left : Scene} {i : Instruction} {failure : Failure}
  (coherent : scene.state.store.memory.Coherent m.window log)
include coherent

theorem lastWritten_of_load {src : Operand} {dst : Register}
    (found : m.program.decoded? scene.state.pc = some (.ok (some (.load dst src))))
    (cell : src.isBare = false) (goes : m.turn scene = .goes next) :
    next.state.store.bank.get dst =
      lastWritten log (src.expr.eval scene.state.store.bank) := by
  rw [turn_of_instruction found] at goes
  obtain ⟨flow, performed, -⟩ := carryOut_eq_goes goes
  exact coherent.eq_lastWritten ((perform_load dst cell).of_ok performed)

theorem lastWritten_of_pop {dst : Register}
    (found : m.program.decoded? scene.state.pc = some (.ok (some (.pop dst))))
    (goes : m.turn scene = .goes next) :
    next.state.store.bank.get dst = lastWritten log scene.state.store.bank.sp := by
  rw [turn_of_instruction found] at goes
  obtain ⟨flow, performed, -⟩ := carryOut_eq_goes goes
  exact coherent.eq_lastWritten ((perform_pop dst).of_ok performed)

theorem lastWritten_of_ret {o : Operand}
    (found : m.program.decoded? scene.state.pc = some (.ok (some (.unary .ret o))))
    (goes : m.turn scene = .goes next) :
    m.program.target? (lastWritten log scene.state.store.bank.sp) = some next.state.pc := by
  rw [turn_of_instruction found] at goes
  obtain ⟨flow, performed, after⟩ := carryOut_eq_goes goes
  obtain ⟨x, line, held, inside, rfl⟩ := (perform_ret o).of_ok performed
  have here : line = next.state.pc := congrArg (·.state.pc) (Turn.goes.inj after)
  rw [← coherent.eq_lastWritten held, inside, here]

theorem lastWritten_of_ret_outside {o : Operand} {x : Word}
    (found : m.program.decoded? scene.state.pc = some (.ok (some (.unary .ret o))))
    (fails : m.turn scene = .fails ⟨scene.state.pc, .jumpOutside x⟩ left) :
    x = lastWritten log scene.state.store.bank.sp := by
  rw [turn_of_instruction found] at fails
  obtain ⟨store, performed, -⟩ | refused := carryOut_eq_fails fails
  · exact coherent.eq_lastWritten ((perform_ret o).of_error performed x rfl)
  · cases refused

end Turns

/-- Memory and the log of all stores, pushes and calls agree at every loop head and after every return
of any number of executions. So a load from a cell, a pop and a return obtain what was written there
last. Reserving, popping, returning and failing change no cell. -/
theorem cells_hold_last_writes (m : Machine) :
    (∀ s, Reachable m s → ∃ log, History m log s) ∧
    ∀ log s, History m log s →
      (∀ address, m.window.base ≤ address → address < m.window.top →
        s.store.memory.read? address = some (lastWritten log address)) ∧
      ∀ clock streams n scene, LoopHead m clock ⟨s, streams⟩ n scene →
        let log := log ++ m.writes clock n s streams
        let store := scene.state.store
        (∀ address, m.window.base ≤ address → address < m.window.top →
          store.memory.read? address = some (lastWritten log address)) ∧
        (∀ dst src next,
          m.program.decoded? scene.state.pc = some (.ok (some (.load dst src))) →
          src.isBare = false → m.turn scene = .goes next →
            next.state.store.bank.get dst = lastWritten log (src.expr.eval store.bank)) ∧
        (∀ dst next, m.program.decoded? scene.state.pc = some (.ok (some (.pop dst))) →
          m.turn scene = .goes next →
            next.state.store.bank.get dst = lastWritten log store.bank.sp) ∧
        (∀ o, m.program.decoded? scene.state.pc = some (.ok (some (.unary .ret o))) →
          (∀ next, m.turn scene = .goes next →
            m.program.target? (lastWritten log store.bank.sp) = some next.state.pc) ∧
          ∀ x left, m.turn scene = .fails ⟨scene.state.pc, .jumpOutside x⟩ left →
            x = lastWritten log store.bank.sp) ∧
        (∀ i, m.program.decoded? scene.state.pc = some (.ok (some i)) →
          i = .nullary .pushUp ∨ (∃ dst, i = .pop dst) ∨ (∃ o, i = .unary .ret o) →
            (m.turn scene).scene.state.store.memory = store.memory) ∧
        ∀ failure left, m.turn scene = .fails failure left →
          left.state.store.memory = store.memory := by
  refine ⟨fun s => Reachable.exists_history, fun log s history => ⟨history.coherent.holds, ?_⟩⟩
  intro clock streams n scene head log store
  have coherent : store.memory.Coherent m.window log := head.coherent history.coherent
  refine ⟨coherent.holds, fun dst src next => lastWritten_of_load coherent,
    fun dst next => lastWritten_of_pop coherent, fun o found => ⟨?_, ?_⟩, ?_, ?_⟩
  · intro next
    exact lastWritten_of_ret coherent found
  · intro x left
    exact lastWritten_of_ret_outside coherent found
  · rintro i found (rfl | ⟨dst, rfl⟩ | ⟨o, rfl⟩)
    all_goals exact memory_of_silent (write?_of_instruction found)
  · intro failure left fails
    have ends : ∀ next, m.turn scene ≠ .goes next := by simp [fails]
    have kept := memory_of_ends ends
    rwa [fails] at kept

def shared : Machine :=
  ofLines #["STORE 5, 13", "CALL 3", "POP A", "LOAD B, #(13)", "END"] { window := ⟨12, 14⟩ }

theorem cells_hold_last_writes_of_call :
    ∃ s, History shared [⟨13, 5⟩, ⟨13, 3⟩] s ∧ s.store.memory.read? 13 = some 3 ∧
      s.store.memory.read? 12 = some 0 ∧
      ∃ scene next, LoopHead shared (fun _ => ⟨0⟩) ⟨shared.initial, {}⟩ 2 scene ∧
        shared.turn scene = .goes next ∧ next.state.store.bank.a = 3 := by
  have agrees := (cells_hold_last_writes shared).2
  have run : shared.execute (fun _ => ⟨0⟩) 9 shared.initial {} =
      some ⟨.ok ⟨5, ⟨0⟩⟩, ⟨⟨⟨⟨3, 3, 0, 14, 14⟩, ⟨12, #[0, 3]⟩⟩, 5, 5⟩, {}⟩⟩ := rfl
  have history := History.initial.execute run
  obtain ⟨cells, -⟩ := agrees _ _ history
  have head : LoopHead shared (fun _ => ⟨0⟩) ⟨shared.initial, {}⟩ 2
      ⟨⟨⟨⟨0, 0, 0, 14, 13⟩, ⟨12, #[0, 3]⟩⟩, 3, 2⟩, {}⟩ := (LoopHead.start.goes rfl).goes rfl
  have goes : shared.turn ⟨⟨⟨⟨0, 0, 0, 14, 13⟩, ⟨12, #[0, 3]⟩⟩, 3, 2⟩, {}⟩ =
      .goes ⟨⟨⟨⟨3, 0, 0, 14, 14⟩, ⟨12, #[0, 3]⟩⟩, 4, 3⟩, {}⟩ := rfl
  have popped := ((agrees [] _ .initial).2 _ _ _ _ head).2.2.1 .a _ rfl goes
  exact ⟨_, history, cells 13 (by decide) (by decide), cells 12 (by decide) (by decide), _, _, head,
    goes, popped⟩

end Machine

end RegisterMachine
