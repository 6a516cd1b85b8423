import RegisterMachine.Proofs.Preemption

/-! Two machines side by side. What their instructions have in common on related stores their turns
have in common on related scenes, and their runs from start to end. Causes of failures are compared
through a view of them. The first machine may be excused from some failures, after which nothing is
said of the second. Dumps are not compared; they need a channel that has room for any text. -/

namespace RegisterMachine

def Failure.through (view : Cause → Cause) (f : Failure) : Failure :=
  { f with cause := view f.cause }

theorem Failure.map_through_id (failure? : Option Failure) :
    failure?.map (·.through id) = failure? := by
  cases failure? <;> rfl

namespace Ending

def failure? (e : Ending) : Option Failure :=
  match e.result with
  | .ok _ => none
  | .error failure => some failure

end Ending

namespace Turn

variable {R : Scene → Scene → Prop} {view : Cause → Cause} {excused : Cause → Prop}

/-- The turns end alike in related scenes, or the first fails by an excused cause. -/
def Matches (R : Scene → Scene → Prop) (view : Cause → Cause) (excused : Cause → Prop) :
    Turn → Turn → Prop
  | .goes a, .goes b => R a b
  | .halts a, .halts b => R a b
  | .fails failure a, other =>
      excused failure.cause ∨
        ∃ failure' b, other = .fails failure' b ∧ failure'.through view = failure.through view ∧ R a b
  | _, _ => False

theorem Matches.of_goes {a : Scene} {other : Turn} (h : Matches R view excused (.goes a) other) :
    ∃ b, other = .goes b ∧ R a b := by
  cases other with
  | goes b => exact ⟨b, rfl, h⟩
  | halts b => exact h.elim
  | fails failure b => exact h.elim

theorem Matches.ending? {turn other : Turn} (h : Matches R view excused turn other)
    {elapsed : Duration} {ending : Ending} (ends : turn.ending? elapsed = some ending)
    (told : ∀ failure, ending.failure? = some failure → ¬excused failure.cause)
    (later : Duration) :
    ∃ ending', other.ending? later = some ending' ∧
      ending'.failure?.map (·.through view) = ending.failure?.map (·.through view) ∧
      R ending.scene ending'.scene := by
  cases turn with
  | goes a => cases ends
  | halts a =>
    cases ends
    cases other with
    | goes b => exact h.elim
    | halts b => exact ⟨_, rfl, rfl, h⟩
    | fails failure b => exact h.elim
  | fails failure a =>
    cases ends
    rcases h with excuse | ⟨failure', b, rfl, same, related⟩
    · exact (told failure rfl excuse).elim
    · exact ⟨_, rfl, congrArg some same, related⟩

theorem Matches.and {D : Scene → Scene → Prop} {turn other : Turn}
    (h : Matches R view excused turn other) (also : D turn.scene other.scene) :
    Matches (fun a b => R a b ∧ D a b) view excused turn other := by
  cases turn with
  | goes a =>
    cases other with
    | goes b => exact ⟨h, also⟩
    | halts b => exact h
    | fails failure b => exact h
  | halts a =>
    cases other with
    | goes b => exact h
    | halts b => exact ⟨h, also⟩
    | fails failure b => exact h
  | fails failure a =>
    rcases h with excuse | ⟨failure', b, rfl, same, related⟩
    · exact .inl excuse
    · exact .inr ⟨failure', b, rfl, same, related, also⟩

end Turn

namespace Machine

variable {m m' : Machine} {clock : Clock} {R : Scene → Scene → Prop} {view : Cause → Cause}
  {excused : Cause → Prop}

/-- Without a limit of time, every turn of the first machine matches one of the second. -/
structure Simulates (m m' : Machine) (R : Scene → Scene → Prop) (view : Cause → Cause)
    (excused : Cause → Prop) : Prop where
  untimed : m.settings.budget = none
  untimed' : m'.settings.budget = none
  turn : ∀ a b, R a b → Turn.Matches R view excused (m.turn a) (m'.turn b)

theorem advance_of_no_budget (untimed : m.settings.budget = none) (elapsed : Duration)
    (scene : Scene) : m.advance elapsed scene = m.turn scene := by
  have early : m.expired? elapsed = none := by rw [expired?, untimed]; rfl
  exact advance_of_unexpired early

namespace Simulates

variable {start start' scene : Scene} {n : Nat}

theorem and (sim : Simulates m m' R view excused) {D : Scene → Scene → Prop}
    (kept : ∀ a b, R a b → D a b → D (m.turn a).scene (m'.turn b).scene) :
    Simulates m m' (fun a b => R a b ∧ D a b) view excused where
  untimed := sim.untimed
  untimed' := sim.untimed'
  turn a b related := (sim.turn a b related.1).and (kept a b related.1 related.2)

theorem loopHead (sim : Simulates m m' R view excused) (related : R start start')
    (head : LoopHead m clock start n scene) (clock' : Clock) :
    ∃ other, LoopHead m' clock' start' n other ∧ R scene other := by
  induction head with
  | start => exact ⟨start', .start, related⟩
  | @goes n scene next _ step ih =>
    obtain ⟨other, passed, alike⟩ := ih
    have turns := sim.turn scene other alike
    rw [advance_of_no_budget sim.untimed] at step
    rw [step] at turns
    obtain ⟨next', step', alike'⟩ := turns.of_goes
    rw [← advance_of_no_budget sim.untimed' (clock' n)] at step'
    exact ⟨next', passed.goes step', alike'⟩

theorem execute (sim : Simulates m m' R view excused) {s s' : State} {streams streams' : Streams}
    (related : R ⟨s, streams⟩ ⟨s', streams'⟩) {fuel : Nat} {ending : Ending}
    (run : m.execute clock fuel s streams = some ending)
    (told : ∀ failure, ending.failure? = some failure → ¬excused failure.cause)
    (clock' : Clock) :
    ∃ ending', m'.execute clock' fuel s' streams' = some ending' ∧
      ending'.failure?.map (·.through view) = ending.failure?.map (·.through view) ∧
      R ending.scene ending'.scene := by
  obtain ⟨n, head, bound, passed, ends⟩ := execute_eq_some_iff.mp run
  obtain ⟨other, passed', alike⟩ := sim.loopHead related passed clock'
  rw [advance_of_no_budget sim.untimed] at ends
  obtain ⟨ending', ends', failure, alike'⟩ :=
    (sim.turn head other alike).ending? ends told (clock' (n + 1))
  rw [← advance_of_no_budget sim.untimed' (clock' n)] at ends'
  exact ⟨ending', execute_eq_some_iff.mpr ⟨n, other, bound, passed', ends'⟩, failure, alike'⟩

theorem execute_eq_none (sim : Simulates m m' R view excused) {s s' : State}
    {streams streams' : Streams} (related : R ⟨s, streams⟩ ⟨s', streams'⟩) {fuel : Nat}
    (runs : m.execute clock fuel s streams = none) (clock' : Clock) :
    m'.execute clock' fuel s' streams' = none := by
  obtain ⟨scene, head⟩ := execute_eq_none_iff.mp runs
  obtain ⟨other, passed, -⟩ := sim.loopHead related head clock'
  exact execute_eq_none_iff.mpr ⟨other, passed⟩

end Simulates

theorem outcome_of_execute {fuel : Nat} {s : State} {streams : Streams} {ending : Ending}
    (run : m.execute clock fuel s streams = some ending) :
    ending.outcome =
      match ending.failure? with
      | none => .ok ending.scene.state.steps
      | some failure => .error failure := by
  obtain ⟨n, head, -, -, ends⟩ := execute_eq_some_iff.mp run
  cases step : m.advance (clock n) head with
  | goes next => rw [step] at ends; cases ends
  | halts left => rw [step] at ends; cases ends; rfl
  | fails failure left => rw [step] at ends; cases ends; rfl

theorem outcome_of_lead {clock' : Clock} {fuel lead : Nat} {s s' : State} {streams streams' : Streams}
    {e e' : Ending} (run : m.execute clock fuel s streams = some e)
    (run' : m'.execute clock' fuel s' streams' = some e')
    (failure : e'.failure?.map (·.through id) = e.failure?.map (·.through id))
    (steps : e.scene.state.steps = e'.scene.state.steps + lead) :
    e.outcome = e'.outcome.map (· + lead) := by
  rw [Failure.map_through_id, Failure.map_through_id] at failure
  rw [outcome_of_execute run, outcome_of_execute run', failure, steps]
  cases e.failure? <;> rfl

end Machine

namespace Action

variable {α β γ δ : Type} {R : Store → Store → Prop} {V : α → β → Prop} {W : γ → δ → Prop}
  {excused : Cause → Prop} {x : Action α} {y : Action β} {s t : Store}

/-- The actions come to matching results, or to the same failure, in related stores; or the first
fails by an excused cause. -/
def Matches (R : Store → Store → Prop) (V : α → β → Prop) (excused : Cause → Prop)
    (x : Action α) (y : Action β) (s t : Store) : Prop :=
  x.Leads s (fun a s' => ∃ b t', y t = .ok b t' ∧ V a b ∧ R s' t')
    (fun cause s' => excused cause ∨ ∃ t', y t = .error cause t' ∧ R s' t')

theorem Matches.pure {a : α} {b : β} (value : V a b) (related : R s t) :
    Matches R V excused (pure a) (pure b) s t :=
  ⟨b, t, rfl, value, related⟩

theorem Matches.throw (cause : Cause) (related : R s t) :
    Matches R V excused (throw cause) (throw cause) s t :=
  .inr ⟨t, rfl, related⟩

theorem Matches.get (related : R s t) : Matches R R excused get get s t :=
  ⟨t, t, rfl, related, related⟩

theorem Matches.refl {V : α → α → Prop} (same : ∀ a, V a a) (x : Action α) (s : Store) :
    Matches Eq V excused x x s s := by
  unfold Matches Leads
  split
  · rename_i a t result
    exact ⟨a, t, result, same a, rfl⟩
  · rename_i cause t result
    exact .inr ⟨t, result, rfl⟩

theorem Matches.bind {f : α → Action γ} {g : β → Action δ} (first : Matches R V excused x y s t)
    (rest : ∀ a b s' t', V a b → R s' t' → Matches R W excused (f a) (g b) s' t') :
    Matches R W excused (x >>= f) (y >>= g) s t := by
  rw [Matches, leads_bind]
  refine Leads.mono first (fun a s' done => ?_) (fun cause s' failed => ?_)
  · obtain ⟨b, t', second, value, related⟩ := done
    have bound : (y >>= g) t = g b t' := by simp only [Bind.bind, EStateM.bind, second]
    have after := rest a b s' t' value related
    rw [Matches] at after
    rwa [bound]
  · refine failed.imp_right fun other => ?_
    obtain ⟨t', second, related⟩ := other
    refine ⟨t', ?_, related⟩
    simp only [Bind.bind, EStateM.bind, second]

theorem Matches.bind_same {y : Action α} {f : α → Action γ} {g : α → Action δ}
    (first : Matches R Eq excused x y s t)
    (rest : ∀ a s' t', R s' t' → Matches R W excused (f a) (g a) s' t') :
    Matches R W excused (x >>= f) (y >>= g) s t := by
  refine first.bind fun a b s' t' same related => ?_
  subst same
  exact rest a s' t' related

theorem Matches.ite {x' : Action α} {y' : Action β} {c c' : Prop} [Decidable c] [Decidable c']
    (same : c ↔ c') (yes : c → Matches R V excused x y s t)
    (no : ¬c → Matches R V excused x' y' s t) :
    Matches R V excused (if c then x else x') (if c' then y else y') s t := by
  by_cases h : c
  · rw [if_pos h, if_pos (same.mp h)]
    exact yes h
  · rw [if_neg h, if_neg fun h' => h (same.mpr h')]
    exact no h

end Action

def Flow.Like : Flow → Flow → Prop
  | .emit .diag _, .emit .diag _ => True
  | f, g => f = g

theorem Flow.Like.refl (f : Flow) : Flow.Like f f := by
  unfold Flow.Like
  split <;> trivial

namespace Sink

theorem limit_write (sink : Sink) (bytes : ByteArray) : (sink.write bytes).limit = sink.limit := by
  obtain ⟨limit, old⟩ := sink
  cases limit <;> rfl

theorem hasRoom_of_unlimited {sink : Sink} (unlimited : sink.limit = none) (bytes : ByteArray) :
    sink.hasRoom bytes = true := by
  rw [hasRoom, unlimited]

end Sink

/-- The scenes have related stores and the same output, and any dump can be written in them. -/
structure Scene.Like (R : Store → Store → Prop) (a b : Scene) : Prop where
  store : R a.state.store b.state.store
  pc : a.state.pc = b.state.pc
  steps : a.state.steps = b.state.steps
  out : a.streams.out = b.streams.out
  diag : a.streams.diag.limit = none
  diag' : b.streams.diag.limit = none

namespace Machine

variable {m m' : Machine} {R : Store → Store → Prop} {view : Cause → Cause}
  {excused : Cause → Prop} {a b : Scene}

inductive LineMatches (m m' : Machine) (R : Store → Store → Prop) (view : Cause → Cause)
    (excused : Cause → Prop) (n : Nat) : Prop where
  | missing : m.program.decoded? n = none → m'.program.decoded? n = none →
      LineMatches m m' R view excused n
  | undecodable (e e' : DecodeError) : m.program.decoded? n = some (.error e) →
      m'.program.decoded? n = some (.error e') →
      view (.undecodable e') = view (.undecodable e) → LineMatches m m' R view excused n
  | empty : m.program.decoded? n = some (.ok none) → m'.program.decoded? n = some (.ok none) →
      LineMatches m m' R view excused n
  | instruction (i j : Instruction) : m.program.decoded? n = some (.ok (some i)) →
      m'.program.decoded? n = some (.ok (some j)) →
      (∀ s t, R s t →
        Action.Matches R Flow.Like excused (m.perform n i) (m'.perform n j) s t) →
      LineMatches m m' R view excused n

theorem follow_matches {f g : Flow} (flows : Flow.Like f g) (like : a.Like R b) {s t : Store}
    (related : R s t) :
    Turn.Matches (Scene.Like R) view excused
      (follow s a.state.pc (a.state.steps + 1) a.streams f)
      (follow t b.state.pc (b.state.steps + 1) b.streams g) := by
  have steps : a.state.steps + 1 = b.state.steps + 1 := by rw [like.steps]
  have pc : a.state.pc + 1 = b.state.pc + 1 := by rw [like.pc]
  unfold Flow.Like at flows
  split at flows
  · rename_i text text'
    have room := Sink.hasRoom_of_unlimited like.diag text.toUTF8
    have room' := Sink.hasRoom_of_unlimited like.diag' text'.toUTF8
    simp only [follow, Streams.get, room, room', if_true]
    exact ⟨related, pc, steps, like.out, (Sink.limit_write _ _).trans like.diag,
      (Sink.limit_write _ _).trans like.diag'⟩
  · rename_i dumps
    subst flows
    cases f with
    | next => exact ⟨related, pc, steps, like.out, like.diag, like.diag'⟩
    | jump line => exact ⟨related, rfl, steps, like.out, like.diag, like.diag'⟩
    | halt => exact ⟨related, like.pc, steps, like.out, like.diag, like.diag'⟩
    | emit channel text =>
      cases channel with
      | diag => exact (dumps text text rfl rfl).elim
      | out =>
        have written : a.streams.out.write text.toUTF8 = b.streams.out.write text.toUTF8 := by
          rw [like.out]
        have same : a.streams.get .out = b.streams.get .out := like.out
        rw [follow, follow, same, like.pc]
        by_cases room : (b.streams.get .out).hasRoom text.toUTF8 = true
        · simp only [if_pos room]
          exact ⟨related, rfl, steps, written, like.diag, like.diag'⟩
        · simp only [if_neg room]
          exact .inr ⟨_, _, rfl, rfl, related, rfl, steps, written, like.diag, like.diag'⟩

theorem turn_matches (lines : ∀ n, LineMatches m m' R view excused n) (a b : Scene)
    (like : a.Like R b) : Turn.Matches (Scene.Like R) view excused (m.turn a) (m'.turn b) := by
  obtain ⟨found, found'⟩ | ⟨e, e', found, found', same⟩ | ⟨found, found'⟩ |
    ⟨i, j, found, found', performs⟩ := lines a.state.pc
  · rw [turn_eq m, found, turn_eq m', ← like.pc, found']
    exact .inr ⟨_, b, rfl, rfl, like⟩
  · rw [turn_eq m, found, turn_eq m', ← like.pc, found']
    exact .inr ⟨_, b, rfl, congrArg (Failure.mk _) same, like⟩
  · rw [turn_eq m, found, turn_eq m', ← like.pc, found']
    exact ⟨like.store, rfl, like.steps, like.out, like.diag, like.diag'⟩
  · rw [like.pc] at found'
    rw [turn_of_instruction found, turn_of_instruction found', carryOut, carryOut]
    have matched := performs _ _ like.store
    rw [like.pc] at matched
    rw [like.pc]
    cases performed : m.perform b.state.pc i a.state.store with
    | ok f s =>
      obtain ⟨g, t, performed', flows, related⟩ := matched.of_ok performed
      rw [performed']
      have followed : Turn.Matches (Scene.Like R) view excused
          (follow s a.state.pc (a.state.steps + 1) a.streams f)
          (follow t b.state.pc (b.state.steps + 1) b.streams g) := follow_matches flows like related
      rwa [like.pc] at followed
    | error cause s =>
      rcases matched.of_error performed with excuse | ⟨t, performed', related⟩
      · exact .inl excuse
      · rw [performed']
        have steps : a.state.steps + 1 = b.state.steps + 1 := by rw [like.steps]
        exact .inr ⟨_, _, rfl, rfl, related, rfl, steps, like.out, like.diag, like.diag'⟩

theorem simulates_of_lines (untimed : m.settings.budget = none)
    (untimed' : m'.settings.budget = none) (lines : ∀ n, LineMatches m m' R view excused n) :
    Simulates m m' (Scene.Like R) view excused :=
  ⟨untimed, untimed', turn_matches lines⟩

end Machine

end RegisterMachine
