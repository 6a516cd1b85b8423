import RegisterMachine.Proofs.Simulation

/-! What a turn writes. Three instructions emit a text each, on one of the two channels, and do
nothing else; no other instruction writes anything. So the streams take part in a run only by the room
they have, and two runs of a machine keep step for as long as both have it. -/

namespace RegisterMachine

structure Emission where
  channel : Channel
  text : String
  deriving DecidableEq, Repr

def Flow.emission? : Flow → Option Emission
  | .emit channel text => some ⟨channel, text⟩
  | _ => none

def Emission.bytes (e : Emission) : ByteArray :=
  e.text.toUTF8

theorem Sink.bytes_write {sink : Sink} (unlimited : sink.limit = none) (bytes : ByteArray) :
    (sink.write bytes).bytes = sink.bytes ++ bytes := by
  obtain ⟨limit, old⟩ := sink
  cases unlimited
  rfl

namespace Machine

variable {m : Machine} {scene : Scene}

def emission? (m : Machine) (pc : Nat) (s : Store) : Instruction → Option Emission
  | .unary .print o => some ⟨.out, (o.expr.eval s.bank).text⟩
  | .nullary .println => some ⟨.out, "\n"⟩
  | .nullary .debug => some ⟨.diag, (Snapshot.take m.program m.window pc s).render⟩
  | _ => none

def emits? (m : Machine) (s : State) : Option Emission :=
  match m.program.decoded? s.pc with
  | some (.ok (some i)) => m.emission? s.pc s.store i
  | _ => none

theorem perform_emission (m : Machine) (pc : Nat) (i : Instruction) (s : Store) :
    (m.perform pc i).Leads s
      (fun flow t => flow.emission? = m.emission? pc s i ∧ (flow.emission?.isSome = true → t = s))
      (fun _ _ => m.emission? pc s i = none) := by
  cases i with
  | load dst src => simp [perform, emission?, Flow.emission?]
  | store value address => simp [perform, emission?, Flow.emission?]
  | pop dst => simp [perform, emission?, Flow.emission?]
  | unary op o =>
    cases op <;> simp [perform, performUnary, emission?, Flow.emission?]
  | nullary op =>
    cases op with
    | arith op =>
      simp only [perform, performNullary, Action.leads_bind, Action.leads_get]
      split <;> simp [emission?, Flow.emission?]
    | _ => simp [perform, performNullary, emission?, Flow.emission?]

theorem emits?_of_instruction {s : State} {i : Instruction}
    (found : m.program.decoded? s.pc = some (.ok (some i))) :
    m.emits? s = m.emission? s.pc s.store i := by
  rw [emits?, found]

theorem instruction_of_emits? {s : State} {e : Emission} (found : m.emits? s = some e) :
    ∃ i, m.program.decoded? s.pc = some (.ok (some i)) ∧ m.emission? s.pc s.store i = some e := by
  unfold emits? at found
  split at found
  · rename_i i decoded
    exact ⟨i, decoded, found⟩
  · cases found

theorem turn_of_emits? {e : Emission} (found : m.emits? scene.state = some e) :
    m.turn scene = follow scene.state.store scene.state.pc (scene.state.steps + 1) scene.streams
      (.emit e.channel e.text) := by
  obtain ⟨i, decoded, emits⟩ := instruction_of_emits? found
  have effect := m.perform_emission scene.state.pc i scene.state.store
  rw [turn_of_instruction decoded, carryOut]
  cases performed : m.perform scene.state.pc i scene.state.store with
  | error cause store =>
    have silent := effect.of_error performed
    rw [emits] at silent
    cases silent
  | ok flow store =>
    obtain ⟨written, same⟩ := effect.of_ok performed
    rw [emits] at written
    rw [same (by rw [written]; rfl)]
    cases flow with
    | emit channel text => cases written; rfl
    | _ => cases written

theorem follow_of_silent {store : Store} {pc steps : Nat} {streams : Streams} {flow : Flow}
    (silent : flow.emission? = none) :
    (follow store pc steps streams flow).scene.streams = streams ∧
      ∀ failure left, follow store pc steps streams flow ≠ .fails failure left := by
  cases flow with
  | emit channel text => cases silent
  | _ => exact ⟨rfl, fun failure left fails => by cases fails⟩

theorem turn_of_silent (silent : m.emits? scene.state = none) :
    (m.turn scene).scene.streams = scene.streams ∧
      ∀ failure left, m.turn scene = .fails failure left → ∀ reason,
        failure.cause ≠ .output reason := by
  cases decoded : m.program.decoded? scene.state.pc with
  | none =>
    rw [turn_eq, decoded]
    refine ⟨rfl, ?_⟩
    rintro _ _ ⟨⟩
    simp
  | some line =>
    cases line with
    | error e =>
      rw [turn_eq, decoded]
      refine ⟨rfl, ?_⟩
      rintro _ _ ⟨⟩
      simp
    | ok i =>
      cases i with
      | none =>
        rw [turn_eq, decoded]
        exact ⟨rfl, fun failure left fails => by cases fails⟩
      | some i =>
        rw [emits?_of_instruction decoded] at silent
        rw [turn_of_instruction decoded, carryOut]
        cases performed : m.perform scene.state.pc i scene.state.store with
        | error cause store =>
          refine ⟨rfl, ?_⟩
          rintro _ _ ⟨⟩ reason ⟨⟩
          exact (m.perform_cause _ _ _).of_error performed
        | ok flow store =>
          have written := ((m.perform_emission _ _ _).of_ok performed).1
          obtain ⟨kept, goes⟩ := follow_of_silent (written.trans silent)
          exact ⟨kept, fun failure left fails => (goes failure left fails).elim⟩

theorem streams_of_turn (m : Machine) (scene : Scene) :
    (m.turn scene).scene.streams =
      match m.emits? scene.state with
      | none => scene.streams
      | some e => scene.streams.write e.channel e.bytes := by
  cases found : m.emits? scene.state with
  | none => exact (turn_of_silent found).1
  | some e =>
    rw [turn_of_emits? found, follow]
    dsimp only
    split <;> rfl

end Machine

/-- The scenes have the same store and line; the first has counted `lead` more steps, and the streams
are related. -/
structure Scene.Parallel (lead : Nat) (S : Streams → Streams → Prop) (a b : Scene) : Prop where
  store : a.state.store = b.state.store
  pc : a.state.pc = b.state.pc
  steps : a.state.steps = b.state.steps + lead
  streams : S a.streams b.streams

theorem Scene.Parallel.state_eq {S : Streams → Streams → Prop} {a b : Scene}
    (alike : a.Parallel 0 S b) : a.state = b.state := by
  obtain ⟨⟨store, pc, steps⟩, streams⟩ := a
  obtain ⟨⟨store', pc', steps'⟩, streams'⟩ := b
  obtain ⟨rfl, rfl, rfl, -⟩ := alike
  rfl

/-- What fits the first streams fits the second, and leaves them related; where something does not fit,
the refusal is excused. -/
structure Streams.KeepPace (S : Streams → Streams → Prop) (excused : Cause → Prop) : Prop where
  write : ∀ x y, S x y → ∀ channel bytes, (x.get channel).hasRoom bytes = true →
    (y.get channel).hasRoom bytes = true ∧ S (x.write channel bytes) (y.write channel bytes)
  refused : ∀ x y, S x y → ∀ channel bytes, (x.get channel).hasRoom bytes = false →
    excused (.output Sink.refusal)

namespace Machine

variable {m : Machine} {lead : Nat} {S : Streams → Streams → Prop} {excused : Cause → Prop}
  {a b : Scene}

theorem follow_parallel (pace : Streams.KeepPace S excused) (alike : a.Parallel lead S b)
    (store : Store) (flow : Flow) :
    Turn.Matches (Scene.Parallel lead S) id excused
      (follow store a.state.pc (a.state.steps + 1) a.streams flow)
      (follow store b.state.pc (b.state.steps + 1) b.streams flow) := by
  have pc : a.state.pc + 1 = b.state.pc + 1 := by rw [alike.pc]
  have steps : a.state.steps + 1 = b.state.steps + 1 + lead := by rw [alike.steps]; omega
  cases flow with
  | next => exact ⟨rfl, pc, steps, alike.streams⟩
  | jump line => exact ⟨rfl, rfl, steps, alike.streams⟩
  | halt => exact ⟨rfl, alike.pc, steps, alike.streams⟩
  | emit channel text =>
    cases room : (a.streams.get channel).hasRoom text.toUTF8 with
    | true =>
      obtain ⟨room', written⟩ := pace.write _ _ alike.streams channel text.toUTF8 room
      simp only [follow, room, room', if_true]
      exact ⟨rfl, pc, steps, written⟩
    | false =>
      simp only [follow, room, Bool.false_eq_true, if_false]
      exact .inl (pace.refused _ _ alike.streams channel text.toUTF8 room)

theorem turn_parallel (pace : Streams.KeepPace S excused) (a b : Scene)
    (alike : a.Parallel lead S b) :
    Turn.Matches (Scene.Parallel lead S) id excused (m.turn a) (m.turn b) := by
  have pc : a.state.pc + 1 = b.state.pc + 1 := by rw [alike.pc]
  have steps : a.state.steps + 1 = b.state.steps + 1 + lead := by rw [alike.steps]; omega
  have decodes : m.program.decoded? b.state.pc = m.program.decoded? a.state.pc := by rw [alike.pc]
  cases decoded : m.program.decoded? a.state.pc with
  | none =>
    rw [turn_eq m a, turn_eq m b, decodes, decoded]
    exact .inr ⟨_, b, rfl, by rw [alike.pc], alike⟩
  | some line =>
    cases line with
    | error e =>
      rw [turn_eq m a, turn_eq m b, decodes, decoded]
      exact .inr ⟨_, b, rfl, by rw [alike.pc], alike⟩
    | ok i =>
      cases i with
      | none =>
        rw [turn_eq m a, turn_eq m b, decodes, decoded]
        exact ⟨alike.store, pc, alike.steps, alike.streams⟩
      | some i =>
        rw [turn_of_instruction decoded, turn_of_instruction (decodes.trans decoded), carryOut,
          carryOut, ← alike.pc, ← alike.store]
        cases m.perform a.state.pc i a.state.store with
        | error cause store => exact .inr ⟨_, _, rfl, rfl, rfl, rfl, steps, alike.streams⟩
        | ok flow store =>
          have followed := follow_parallel pace alike store flow
          rwa [← alike.pc] at followed

theorem simulates_parallel (untimed : m.settings.budget = none)
    (pace : Streams.KeepPace S excused) :
    Simulates m m (Scene.Parallel lead S) id excused :=
  ⟨untimed, untimed, turn_parallel pace⟩

end Machine

end RegisterMachine
