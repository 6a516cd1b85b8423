import RegisterMachine.Proofs.Emission

/-! Streams that fail. A stream with a limit keeps the first bytes up to its limit and refuses the
next one, wherever in a text that may be. Until then the run is the one with unlimited streams; and
the refusal leaves the machine where it was before the instruction, so that executing it again repeats
the instruction and goes on from there. -/

namespace RegisterMachine

namespace Streams

def fresh (limits : Channel → Option Nat) : Streams :=
  { out := { limit := limits .out }, diag := { limit := limits .diag } }

theorem get_fresh (limits : Channel → Option Nat) (channel : Channel) :
    (fresh limits).get channel = { limit := limits channel } := by
  cases channel <;> rfl

theorem get_write (streams : Streams) (channel other : Channel) (bytes : ByteArray) :
    (streams.write channel bytes).get other =
      if other = channel then (streams.get channel).write bytes else streams.get other := by
  cases channel <;> cases other <;> rfl

end Streams

theorem extract_of_size_le {bytes : ByteArray} {n : Nat} (short : bytes.size ≤ n) :
    bytes.extract 0 n = bytes := by
  rw [← Nat.max_eq_left short]
  exact ByteArray.extract_zero_max_size

namespace Sink

variable {limit : Option Nat} {x y : Sink} {bytes : ByteArray}

theorem bytes_write_limited {n : Nat} (limited : x.limit = some n) (fits : x.bytes.size ≤ n)
    (bytes : ByteArray) : (x.write bytes).bytes = (x.bytes ++ bytes).extract 0 n := by
  obtain ⟨limit, old⟩ := x
  cases limited
  rw [ByteArray.extract_append, extract_of_size_le fits, Nat.zero_sub]
  rfl

theorem hasRoom_limited {n : Nat} (limited : x.limit = some n) (bytes : ByteArray) :
    x.hasRoom bytes = decide ((x.bytes ++ bytes).size ≤ n) := by
  rw [hasRoom, limited, ByteArray.size_append]

/-- The two have the same bytes, which are within the limit of the first; the second has no limit. -/
structure Within (limit : Option Nat) (x y : Sink) : Prop where
  limited : x.limit = limit
  unlimited : y.limit = none
  same : x.bytes = y.bytes
  fits : ∀ n, limit = some n → x.bytes.size ≤ n

theorem Within.write (within : Within limit x y) (room : x.hasRoom bytes = true) :
    Within limit (x.write bytes) (y.write bytes) := by
  have written : (x.write bytes).bytes = x.bytes ++ bytes ∧
      ∀ n, limit = some n → (x.bytes ++ bytes).size ≤ n := by
    cases limit with
    | none => exact ⟨bytes_write within.limited bytes, nofun⟩
    | some n =>
      have short : (x.bytes ++ bytes).size ≤ n := by
        simpa only [hasRoom_limited within.limited, decide_eq_true_eq] using room
      rw [bytes_write_limited within.limited (within.fits n rfl), extract_of_size_le short]
      exact ⟨rfl, fun _ same => Option.some.inj same ▸ short⟩
  refine ⟨?_, ?_, ?_, ?_⟩
  · rw [limit_write, within.limited]
  · rw [limit_write, within.unlimited]
  · rw [written.1, bytes_write within.unlimited, within.same]
  · rw [written.1]
    exact written.2

theorem Within.cut (within : Within limit x y) (full : x.hasRoom bytes = false) :
    ∃ n, limit = some n ∧ n < (y.write bytes).bytes.size ∧
      (x.write bytes).bytes = (y.write bytes).bytes.extract 0 n := by
  have whole : (y.write bytes).bytes = x.bytes ++ bytes := by
    rw [bytes_write within.unlimited, within.same]
  cases limit with
  | none =>
    rw [hasRoom_of_unlimited within.limited] at full
    cases full
  | some n =>
    refine ⟨n, rfl, ?_, ?_⟩
    · simpa only [hasRoom_limited within.limited, decide_eq_false_iff_not, Nat.not_le, whole]
        using full
    · rw [whole, bytes_write_limited within.limited (within.fits n rfl)]

end Sink

namespace Streams

/-- On both channels the two have the same bytes, within the limits of the first. -/
def Within (limits : Channel → Option Nat) (x y : Streams) : Prop :=
  ∀ channel, (x.get channel).Within (limits channel) (y.get channel)

theorem within_fresh (limits : Channel → Option Nat) : Within limits (fresh limits) {} := by
  intro channel
  rw [get_fresh]
  cases channel <;> exact ⟨rfl, rfl, rfl, fun n _ => Nat.zero_le n⟩

theorem keepPace_within (limits : Channel → Option Nat) :
    KeepPace (Within limits) (· = .output Sink.refusal) where
  write x y within channel bytes room := by
    refine ⟨Sink.hasRoom_of_unlimited (within channel).unlimited bytes, fun other => ?_⟩
    rw [get_write, get_write]
    split
    · rename_i same
      rw [same]
      exact (within channel).write room
    · exact within other
  refused _ _ _ _ _ _ := rfl

/-- The second have on both channels what was there before and then what the first have. -/
structure Continue (before x y : Streams) : Prop where
  unlimited : ∀ channel, (x.get channel).limit = none
  unlimited' : ∀ channel, (y.get channel).limit = none
  bytes : ∀ channel, (y.get channel).bytes = (before.get channel).bytes ++ (x.get channel).bytes

theorem continue_fresh {before : Streams} (unlimited : ∀ channel, (before.get channel).limit = none) :
    Continue before {} before where
  unlimited channel := by cases channel <;> rfl
  unlimited' := unlimited
  bytes channel := by cases channel <;> exact ByteArray.append_empty.symm

theorem keepPace_continue (before : Streams) : KeepPace (Continue before) fun _ => False where
  write x y continues channel bytes _ := by
    refine ⟨Sink.hasRoom_of_unlimited (continues.unlimited' channel) bytes, ?_, ?_, ?_⟩
    · intro other
      rw [get_write]
      split
      · rw [Sink.limit_write, continues.unlimited]
      · exact continues.unlimited other
    · intro other
      rw [get_write]
      split
      · rw [Sink.limit_write, continues.unlimited']
      · exact continues.unlimited' other
    · intro other
      rw [get_write, get_write]
      split
      · rename_i same
        rw [Sink.bytes_write (continues.unlimited channel),
          Sink.bytes_write (continues.unlimited' channel), continues.bytes, same,
          ByteArray.append_assoc]
      · exact continues.bytes other
  refused x y continues channel bytes full := by
    rw [Sink.hasRoom_of_unlimited (continues.unlimited channel)] at full
    cases full

end Streams

def Instruction.channel? : Instruction → Option Channel
  | .unary .print _ | .nullary .println => some .out
  | .nullary .debug => some .diag
  | _ => none

namespace Ending

theorem eq_of_failure? {e : Ending} {failure : Failure} (failed : e.failure? = some failure) :
    e = ⟨.error failure, e.scene⟩ := by
  obtain ⟨result, scene⟩ := e
  cases result with
  | ok summary => cases failed
  | error f => cases failed; rfl

/-- What a caller is given: the outcome, the state that is left, and the bytes on the two channels. -/
def record (e : Ending) : Except Failure Nat × State × ByteArray × ByteArray :=
  (e.outcome, e.scene.state, e.scene.streams.out.bytes, e.scene.streams.diag.bytes)

/-- The second execution ends as the first does, with one step more counted, and has written what the
first has written after the bytes `before`. -/
structure Completes (before : Streams) (whole again : Ending) : Prop where
  outcome : again.outcome = whole.outcome.map (· + 1)
  store : again.scene.state.store = whole.scene.state.store
  pc : again.scene.state.pc = whole.scene.state.pc
  steps : again.scene.state.steps = whole.scene.state.steps + 1
  bytes : ∀ channel, (whole.scene.streams.get channel).bytes =
    (before.get channel).bytes ++ (again.scene.streams.get channel).bytes

end Ending

namespace Machine

variable {m : Machine} {limits : Channel → Option Nat} {a b left : Scene} {failure : Failure}

/-- The turn from `scene` to `next` writes more to the channel than its limit allows, and `left` is what
comes of it with the limit: the machine is as before but for the step that is counted, the stream that
failed has the first bytes, and the other stream is complete. -/
structure Refused (m : Machine) (limits : Channel → Option Nat) (scene next left : Scene)
    (i : Instruction) (channel : Channel) (limit : Nat) : Prop where
  decodes : m.program.decoded? scene.state.pc = some (.ok (some i))
  writes : i.channel? = some channel
  turn : m.turn scene = .goes next
  state : left.state = { scene.state with steps := scene.state.steps + 1 }
  limited : limits channel = some limit
  more : limit < (next.streams.get channel).bytes.size
  cut : (left.streams.get channel).bytes = (next.streams.get channel).bytes.extract 0 limit
  other : ∀ other, other ≠ channel →
    (left.streams.get other).bytes = (next.streams.get other).bytes

theorem channel?_of_emission? {pc : Nat} {s : Store} {i : Instruction} {e : Emission}
    (emits : m.emission? pc s i = some e) : i.channel? = some e.channel := by
  unfold emission? at emits
  split at emits
  · cases emits; rfl
  · cases emits; rfl
  · cases emits; rfl
  · cases emits

theorem refused_of_fails (alike : a.Parallel 0 (Streams.Within limits) b)
    (fails : m.turn a = .fails failure left) {reason : String}
    (refused : failure.cause = .output reason) :
    ∃ next i channel limit, m.Refused limits b next left i channel limit := by
  cases emits : m.emits? a.state with
  | none => exact ((turn_of_silent emits).2 failure left fails reason refused).elim
  | some e =>
    have emits' : m.emits? b.state = some e := by
      rw [← emits, emits?, emits?, alike.pc, alike.store]
    obtain ⟨i, decodes, emission⟩ := instruction_of_emits? emits'
    have room' := Sink.hasRoom_of_unlimited (alike.streams e.channel).unlimited e.text.toUTF8
    have goes := turn_of_emits? emits'
    simp only [follow, room', if_true] at goes
    rw [turn_of_emits? emits] at fails
    cases room : (a.streams.get e.channel).hasRoom e.text.toUTF8 with
    | true =>
      simp only [follow, room, if_true] at fails
      cases fails
    | false =>
      simp only [follow, room, Bool.false_eq_true, if_false] at fails
      obtain ⟨limit, limited, more, cut⟩ := (alike.streams e.channel).cut room
      cases fails
      refine ⟨_, i, e.channel, limit, decodes, channel?_of_emission? emission, goes, ?_, limited,
        ?_, ?_, fun other differs => ?_⟩
      · rw [alike.store, alike.pc, alike.steps]
      · rw [Streams.get_write, if_pos rfl]
        exact more
      · rw [Streams.get_write, Streams.get_write, if_pos rfl, if_pos rfl]
        exact cut
      · rw [Streams.get_write, Streams.get_write, if_neg differs, if_neg differs]
        exact (alike.streams other).same

theorem parallel_fresh (limits : Channel → Option Nat) (s : State) :
    Scene.Parallel 0 (Streams.Within limits) ⟨s, .fresh limits⟩ ⟨s, {}⟩ :=
  ⟨rfl, rfl, rfl, Streams.within_fresh limits⟩

theorem LoopHead.execute_eq {clock : Clock} {s : State} {streams : Streams} {n : Nat} {scene : Scene}
    (head : LoopHead m clock ⟨s, streams⟩ n scene) (fuel : Nat) :
    m.execute clock (n + fuel) s streams =
      m.execute (fun k => clock (k + n)) fuel scene.state scene.streams := by
  rw [execute, head.executeFrom_eq, ← Nat.zero_add n, executeFrom_shift, Nat.zero_add]
  rfl

section Runs

variable {clock : Clock} {fuel : Nat} {s : State} (untimed : m.settings.budget = none)
include untimed

theorem simulates_within (limits : Channel → Option Nat) :
    Simulates m m (Scene.Parallel 0 (Streams.Within limits)) id (· = .output Sink.refusal) :=
  simulates_parallel untimed (Streams.keepPace_within limits)

theorem record_of_unrefused
    (room : ∀ failure left,
      m.execute clock fuel s (.fresh limits) = some ⟨.error failure, left⟩ →
        ∀ reason, failure.cause ≠ .output reason) (clock' : Clock) :
    (m.execute clock fuel s (.fresh limits)).map Ending.record =
      (m.execute clock' fuel s {}).map Ending.record := by
  have sim := simulates_within untimed limits
  have start := parallel_fresh limits s
  cases run : m.execute clock fuel s (.fresh limits) with
  | none => rw [sim.execute_eq_none start run clock']
  | some ending =>
    have told : ∀ failure, ending.failure? = some failure → failure.cause ≠ .output Sink.refusal := by
      intro failure failed
      rw [Ending.eq_of_failure? failed] at run
      exact room failure ending.scene run Sink.refusal
    obtain ⟨whole, run', failure, alike⟩ := sim.execute start run told clock'
    have outcome := outcome_of_lead run run' failure alike.steps
    have counted : whole.outcome.map (· + 0) = whole.outcome := by cases whole.outcome <;> rfl
    have out : ending.scene.streams.out.bytes = whole.scene.streams.out.bytes :=
      (alike.streams .out).same
    have diag : ending.scene.streams.diag.bytes = whole.scene.streams.diag.bytes :=
      (alike.streams .diag).same
    rw [run', Option.map_some, Option.map_some, Ending.record, Ending.record, outcome, counted,
      alike.state_eq, out, diag]

theorem loopHead_of_refusal {line : Nat} {reason : String}
    (run : m.execute clock fuel s (.fresh limits) = some ⟨.error ⟨line, .output reason⟩, left⟩)
    (clock' : Clock) :
    ∃ n scene next i channel limit, LoopHead m clock' ⟨s, {}⟩ n scene ∧ scene.state.pc = line ∧
      (∀ channel, (scene.streams.get channel).limit = none) ∧
      m.Refused limits scene next left i channel limit := by
  obtain ⟨n, head, -, passed, ⟨budget, -, timeout, -⟩ | ⟨-, fails⟩⟩ := execute_eq_error run
  · cases timeout
  · obtain ⟨scene, passed', alike⟩ :=
      (simulates_within untimed limits).loopHead (parallel_fresh limits s) passed clock'
    obtain ⟨next, i, channel, limit, refused⟩ := refused_of_fails alike fails rfl
    have here : scene.state.pc = line := alike.pc.symm.trans (turn_eq_fails fails).1.symm
    exact ⟨n, scene, next, i, channel, limit, passed', here,
      fun channel => (alike.streams channel).unlimited, refused⟩

theorem execute_completes {scene : Scene}
    (unlimited : ∀ channel, (scene.streams.get channel).limit = none)
    (state : left.state = { scene.state with steps := scene.state.steps + 1 })
    (clock clock' : Clock) (fuel : Nat) :
    Option.Rel (Ending.Completes scene.streams)
      (m.execute clock fuel scene.state scene.streams) (m.execute clock' fuel left.state {}) := by
  have sim : Simulates m m (Scene.Parallel 1 (Streams.Continue scene.streams)) id fun _ => False :=
    simulates_parallel untimed (Streams.keepPace_continue scene.streams)
  have start : Scene.Parallel 1 (Streams.Continue scene.streams) ⟨left.state, {}⟩ scene := by
    rw [state]
    exact ⟨rfl, rfl, rfl, Streams.continue_fresh unlimited⟩
  cases run : m.execute clock' fuel left.state {} with
  | none =>
    rw [sim.execute_eq_none start run clock]
    exact .none
  | some again =>
    obtain ⟨whole, run', failure, alike⟩ := sim.execute start run (fun _ _ => id) clock
    rw [run']
    exact .some ⟨outcome_of_lead run run' failure alike.steps, alike.store, alike.pc, alike.steps,
      alike.streams.bytes⟩

end Runs

/-- A stream that fails cuts the output and nothing else. If no write is refused, the execution with
limits is the one without. If one is, the execution without limits comes to the same instruction with
the same store, and carries it out; the stream that failed has the first bytes of what has then been
written to it, the other one all that has been written to it. Executing again, on fresh streams,
repeats the instruction and ends as the execution without limits does. -/
theorem refusal_cuts_output (p : Program) (w : Window) (limits : Channel → Option Nat)
    (clock clock' clock'' : Clock) (fuel : Nat) (s : State) :
    let m : Machine := ⟨p, ⟨w, none⟩⟩
    ((∀ failure left, m.execute clock fuel s (.fresh limits) = some ⟨.error failure, left⟩ →
          ∀ reason, failure.cause ≠ .output reason) →
        (m.execute clock fuel s (.fresh limits)).map Ending.record =
          (m.execute clock' fuel s {}).map Ending.record) ∧
    ∀ line reason left,
      m.execute clock fuel s (.fresh limits) = some ⟨.error ⟨line, .output reason⟩, left⟩ →
        ∃ n scene next i channel limit, LoopHead m clock' ⟨s, {}⟩ n scene ∧ scene.state.pc = line ∧
          m.Refused limits scene next left i channel limit ∧
          ∀ rest, Option.Rel (Ending.Completes scene.streams) (m.execute clock' (n + rest) s {})
            (m.execute clock'' rest left.state {}) := by
  intro m
  refine ⟨fun room => record_of_unrefused rfl room clock', fun line reason left run => ?_⟩
  obtain ⟨n, scene, next, i, channel, limit, head, here, unlimited, refused⟩ :=
    loopHead_of_refusal rfl run clock'
  refine ⟨n, scene, next, i, channel, limit, head, here, refused, fun rest => ?_⟩
  rw [head.execute_eq]
  exact execute_completes rfl unlimited refused.state _ clock'' rest

def twoNumbers : Machine :=
  ofLines #["PRINT 5", "PRINT -12", "END"] ⟨⟨4, 8⟩, none⟩

def outLimit (n : Nat) : Channel → Option Nat
  | .out => some n
  | .diag => none

theorem refusal_cuts_output_in_number :
    (twoNumbers.execute (fun _ => ⟨0⟩) 9 twoNumbers.initial (.fresh (outLimit 4))).map Ending.record =
        (twoNumbers.execute (fun _ => ⟨0⟩) 9 twoNumbers.initial {}).map Ending.record ∧
      ∃ left n scene next i channel limit,
        twoNumbers.execute (fun _ => ⟨0⟩) 9 twoNumbers.initial (.fresh (outLimit 2)) =
            some ⟨.error ⟨2, .output Sink.refusal⟩, left⟩ ∧
          left.streams.out.bytes = "5-".toUTF8 ∧
          LoopHead twoNumbers (fun _ => ⟨0⟩) ⟨twoNumbers.initial, {}⟩ n scene ∧
          twoNumbers.Refused (outLimit 2) scene next left i channel limit ∧
          Option.Rel (Ending.Completes scene.streams)
            (twoNumbers.execute (fun _ => ⟨0⟩) (n + 9) twoNumbers.initial {})
            (twoNumbers.execute (fun _ => ⟨0⟩) 9 left.state {}) := by
  have ended : (twoNumbers.execute (fun _ => ⟨0⟩) 9 twoNumbers.initial
      (.fresh (outLimit 4))).map Ending.failure? = some none := by decide +kernel
  have stopped : (twoNumbers.execute (fun _ => ⟨0⟩) 9 twoNumbers.initial (.fresh (outLimit 2))).map
      (fun e => (e.failure?, e.scene.streams.out.bytes)) =
        some (some ⟨2, .output Sink.refusal⟩, "5-".toUTF8) := by decide +kernel
  have cuts (n : Nat) := refusal_cuts_output twoNumbers.program ⟨4, 8⟩ (outLimit n) (fun _ => ⟨0⟩)
    (fun _ => ⟨0⟩) (fun _ => ⟨0⟩) 9 twoNumbers.initial
  refine ⟨(cuts 4).1 fun failure left run => ?_, ?_⟩
  · have failed := (congrArg (Option.map Ending.failure?) run).symm.trans ended
    cases failed
  · obtain ⟨ending, run, shown⟩ := Option.map_eq_some_iff.mp stopped
    obtain ⟨failed, bytes⟩ := Prod.mk.inj shown
    rw [Ending.eq_of_failure? failed] at run
    obtain ⟨n, scene, next, i, channel, limit, head, -, refused, again⟩ := (cuts 2).2 _ _ _ run
    exact ⟨_, n, scene, next, i, channel, limit, run, bytes, head, refused, again 9⟩

end Machine

end RegisterMachine
