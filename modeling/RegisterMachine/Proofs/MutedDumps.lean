import Mathlib.Data.List.Forall2
import RegisterMachine.Proofs.Emission
import RegisterMachine.Proofs.Tokens
import RegisterMachine.Proofs.VisitedLines

/-! Dumps leave no trace. A line that dumps the machine and a blank line in its place take one turn each
and lead to the same line with the same store, so that the two programs stay in step to the end. The
dumps show only in the count of steps and on their own channel. -/

namespace RegisterMachine

namespace Instruction

/-- The line with its dump taken out: a blank line stands for a line that dumps, and any other line for
itself. -/
inductive Mutes : String → String → Prop where
  | dump {line blank : String} (dumps : decode line = .ok (some (.nullary .debug)))
      (blanks : ∀ c ∈ blank.toList, Text.isBlank c = true) : Mutes line blank
  | kept {line : String} (other : decode line ≠ .ok (some (.nullary .debug))) : Mutes line line

def muted : Except DecodeError (Option Instruction) → Except DecodeError (Option Instruction)
  | .ok (some (.nullary .debug)) => .ok none
  | line => line

theorem decode_blank {blank : String} (blanks : ∀ c ∈ blank.toList, Text.isBlank c = true) :
    decode blank = .ok none := by
  have separators : ∀ c ∈ blank.toList, isSeparator c = true := by
    intro c mem
    simp [isSeparator, blanks c mem]
  have none_left := tokens_run separators []
  rw [List.append_nil] at none_left
  rw [decode, none_left]
  rfl

theorem muted_of_other {line : Except DecodeError (Option Instruction)}
    (other : line ≠ .ok (some (.nullary .debug))) : muted line = line := by
  unfold muted
  split
  · exact (other rfl).elim
  · rfl

theorem Mutes.decode_eq {line line' : String} (mutes : Mutes line line') :
    decode line' = muted (decode line) := by
  cases mutes with
  | dump dumps blanks => rw [decode_blank blanks, dumps, muted]
  | kept other => rw [muted_of_other other]

end Instruction

namespace Program

open Instruction (muted)

variable {p p' : Program}

def Muted (p p' : Program) : Prop :=
  List.Forall₂ Instruction.Mutes p.lines.toList p'.lines.toList

def isDump (p : Program) (n : Nat) : Bool :=
  match p.decoded? n with
  | some (.ok (some (.nullary .debug))) => true
  | _ => false

theorem Muted.size_eq (quiet : p.Muted p') : p.size = p'.size := by
  have lengths := quiet.length_eq
  rwa [Array.length_toList, Array.length_toList] at lengths

theorem Muted.decode_eq (quiet : p.Muted p') :
    p'.lines.toList.map Instruction.decode = p.lines.toList.map (muted ∘ Instruction.decode) := by
  unfold Muted at quiet
  generalize p.lines.toList = lines, p'.lines.toList = lines' at quiet ⊢
  induction quiet with
  | nil => rfl
  | cons first _ ih =>
    rw [List.map_cons, List.map_cons, first.decode_eq, ih]
    rfl

theorem Muted.decoded?_eq (quiet : p.Muted p') (n : Nat) :
    p'.decoded? n = (p.decoded? n).map muted := by
  rw [decoded?, decoded?, line?, line?]
  split
  · rfl
  · have here := congrArg (·[n - 1]?) quiet.decode_eq
    simpa using here

theorem Muted.count_line (quiet : p.Muted p') (n : Nat) :
    (if p.isInstruction n then 1 else 0) =
      (if p'.isInstruction n then 1 else 0) + if p.isDump n then 1 else 0 := by
  rw [isInstruction, isInstruction, isDump, quiet.decoded?_eq]
  cases p.decoded? n with
  | none => rfl
  | some line =>
    cases line with
    | error e => rfl
    | ok i =>
      cases i with
      | none => rfl
      | some i =>
        cases i with
        | nullary op => cases op <;> rfl
        | _ => rfl

theorem Muted.count_lines (quiet : p.Muted p') (lines : List Nat) :
    lines.countP p.isInstruction = lines.countP p'.isInstruction + lines.countP p.isDump := by
  induction lines with
  | nil => rfl
  | cons n lines ih =>
    have here := quiet.count_line n
    rw [List.countP_cons, List.countP_cons, List.countP_cons, ih, here]
    omega

end Program

/-- The scenes have the same store, line and output. The first has room for any dump, and nothing has
been dumped in the second. -/
structure Scene.MutedAlike (diag : Sink) (a b : Scene) : Prop where
  store : a.state.store = b.state.store
  pc : a.state.pc = b.state.pc
  out : a.streams.out = b.streams.out
  unlimited : a.streams.diag.limit = none
  silent : b.streams.diag = diag

namespace Machine

variable {p p' : Program} {settings : Settings} {a b : Scene} {diag : Sink}

theorem follow_muted {flow : Flow} (quiet : ∀ text, flow ≠ .emit .diag text)
    (alike : a.MutedAlike diag b) (store : Store) :
    Turn.Matches (Scene.MutedAlike diag) id (fun _ => False)
      (follow store a.state.pc (a.state.steps + 1) a.streams flow)
      (follow store a.state.pc (b.state.steps + 1) b.streams flow) := by
  cases flow with
  | next => exact ⟨rfl, rfl, alike.out, alike.unlimited, alike.silent⟩
  | jump line => exact ⟨rfl, rfl, alike.out, alike.unlimited, alike.silent⟩
  | halt => exact ⟨rfl, rfl, alike.out, alike.unlimited, alike.silent⟩
  | emit channel text =>
    cases channel with
    | diag => exact (quiet text rfl).elim
    | out =>
      have same : a.streams.get .out = b.streams.get .out := alike.out
      have written : a.streams.out.write text.toUTF8 = b.streams.out.write text.toUTF8 := by
        rw [alike.out]
      rw [follow, follow, same]
      by_cases room : (b.streams.get .out).hasRoom text.toUTF8 = true
      · simp only [if_pos room]
        exact ⟨rfl, rfl, written, alike.unlimited, alike.silent⟩
      · simp only [if_neg room]
        exact .inr ⟨_, _, rfl, rfl, rfl, rfl, written, alike.unlimited, alike.silent⟩

theorem quiet_of_perform {m : Machine} {pc : Nat} {i : Instruction} {s t : Store} {flow : Flow}
    (other : i ≠ .nullary .debug) (performed : m.perform pc i s = .ok flow t) (text : String) :
    flow ≠ .emit .diag text := by
  rintro rfl
  obtain ⟨emits, -⟩ := (m.perform_emission pc i s).of_ok performed
  unfold emission? at emits
  split at emits
  · cases emits
  · cases emits
  · exact other rfl
  · cases emits

theorem carryOut_dump {m : Machine} (unlimited : a.streams.diag.limit = none) :
    m.carryOut (.nullary .debug) a = .goes ⟨⟨a.state.store, a.state.pc + 1, a.state.steps + 1⟩,
      a.streams.write .diag (m.snapshot a.state).render.toUTF8⟩ :=
  if_pos (Sink.hasRoom_of_unlimited unlimited (m.snapshot a.state).render.toUTF8)

theorem turn_muted (muted : p.Muted p') (a b : Scene) (alike : a.MutedAlike diag b) :
    Turn.Matches (Scene.MutedAlike diag) id (fun _ => False) ((⟨p, settings⟩ : Machine).turn a)
      ((⟨p', settings⟩ : Machine).turn b) := by
  rw [turn_eq ⟨p, settings⟩, turn_eq ⟨p', settings⟩, ← alike.pc, muted.decoded?_eq]
  cases p.decoded? a.state.pc with
  | none => exact .inr ⟨_, b, rfl, rfl, alike⟩
  | some line =>
    cases line with
    | error e => exact .inr ⟨_, b, rfl, rfl, alike⟩
    | ok i =>
      cases i with
      | none => exact ⟨alike.store, rfl, alike.out, alike.unlimited, alike.silent⟩
      | some i =>
        by_cases dump : i = .nullary .debug
        · -- The blank line in its place goes on to the same line.
          subst dump
          dsimp only
          rw [carryOut_dump alike.unlimited]
          exact ⟨alike.store, rfl, alike.out, (Sink.limit_write _ _).trans alike.unlimited,
            alike.silent⟩
        · have other : Except.ok (some i) ≠ .ok (ε := DecodeError) (some (.nullary .debug)) := by
            simpa using dump
          rw [Option.map_some, Instruction.muted_of_other other]
          dsimp only
          rw [carryOut, carryOut, perform_of_size muted.size_eq settings _ dump, ← alike.store,
            ← alike.pc]
          cases performed : perform ⟨p', settings⟩ a.state.pc i a.state.store with
          | error cause store =>
            exact .inr ⟨_, _, rfl, rfl, rfl, rfl, alike.out, alike.unlimited, alike.silent⟩
          | ok flow store => exact follow_muted (quiet_of_perform dump performed) alike store

theorem simulates_muted (muted : p.Muted p') (w : Window) (diag : Sink) :
    Simulates ⟨p, ⟨w, none⟩⟩ ⟨p', ⟨w, none⟩⟩ (Scene.MutedAlike diag) id fun _ => False :=
  ⟨rfl, rfl, turn_muted muted⟩

def dumpCount (m : Machine) (clock : Clock) (turns : Nat) (s : State) (streams : Streams) : Nat :=
  (m.fetches clock turns s streams).countP m.program.isDump

end Machine

/-- The second execution ends as the first does, with the steps for the dumps not counted and nothing
dumped. -/
structure Ending.Mutes (diag : Sink) (dumps : Nat) (whole muted : Ending) : Prop where
  outcome : whole.outcome = muted.outcome.map (· + dumps)
  store : whole.scene.state.store = muted.scene.state.store
  pc : whole.scene.state.pc = muted.scene.state.pc
  steps : whole.scene.state.steps = muted.scene.state.steps + dumps
  out : whole.scene.streams.out = muted.scene.streams.out
  diag : muted.scene.streams.diag = diag

namespace Machine

variable {p p' : Program} {w : Window} {clock clock' : Clock} {fuel : Nat} {s : State}
  {streams streams' : Streams} {e e' : Ending}

theorem execute_muted (muted : p.Muted p') {out diag : Sink} (unlimited : diag.limit = none)
    (run : execute ⟨p, ⟨w, none⟩⟩ clock fuel s ⟨out, diag⟩ = some e) (clock' : Clock) :
    ∃ e', execute ⟨p', ⟨w, none⟩⟩ clock' fuel s ⟨out, diag⟩ = some e' ∧
      e.Mutes diag (dumpCount ⟨p, ⟨w, none⟩⟩ clock fuel s ⟨out, diag⟩) e' := by
  have start : Scene.MutedAlike diag ⟨s, ⟨out, diag⟩⟩ ⟨s, ⟨out, diag⟩⟩ :=
    ⟨rfl, rfl, rfl, unlimited, rfl⟩
  have sim := simulates_muted muted w diag
  obtain ⟨e', run', failure, alike⟩ := sim.execute start run (fun _ _ => id) clock'
  have lines : fetches ⟨p, ⟨w, none⟩⟩ clock fuel s ⟨out, diag⟩ =
      fetches ⟨p', ⟨w, none⟩⟩ clock' fuel s ⟨out, diag⟩ :=
    sim.fetchesFrom_eq (fun _ _ alike => alike.pc) clock clock' fuel 0 start
  have steps : e.scene.state.steps =
      e'.scene.state.steps + dumpCount ⟨p, ⟨w, none⟩⟩ clock fuel s ⟨out, diag⟩ := by
    rw [steps_executeFrom run, steps_executeFrom run', dumpCount, Nat.add_assoc]
    change _ + (fetches _ _ _ _ _).countP _ = _ + ((fetches _ _ _ _ _).countP _ + _)
    rw [← lines, muted.count_lines]
  exact ⟨e', run', outcome_of_lead run run' failure steps, alike.store, alike.pc, steps, alike.out,
    alike.silent⟩

/-- Dumps change nothing but the count of steps and what is dumped. With blank lines for the lines that
dump, a program without a limit of time comes to an end just when it did before, after as many turns,
with the same result, store, line and output; it has counted one step less for every dump, and has dumped
nothing. -/
theorem dumps_leave_no_trace (p p' : Program) (muted : p.Muted p') (w : Window) (clock clock' : Clock)
    (s : State) (out diag : Sink) (unlimited : diag.limit = none) :
    let m : Machine := ⟨p, ⟨w, none⟩⟩
    let m' : Machine := ⟨p', ⟨w, none⟩⟩
    (∀ fuel, Option.Rel (Ending.Mutes diag (m.dumpCount clock fuel s ⟨out, diag⟩))
      (m.execute clock fuel s ⟨out, diag⟩) (m'.execute clock' fuel s ⟨out, diag⟩)) ∧
    ∀ n scene, LoopHead m' clock' ⟨s, ⟨out, diag⟩⟩ n scene → scene.streams.diag = diag := by
  intro m m'
  have start : Scene.MutedAlike diag ⟨s, ⟨out, diag⟩⟩ ⟨s, ⟨out, diag⟩⟩ :=
    ⟨rfl, rfl, rfl, unlimited, rfl⟩
  have sim := simulates_muted muted w diag
  have ends (fuel : Nat) : Option.Rel (Ending.Mutes diag (m.dumpCount clock fuel s ⟨out, diag⟩))
      (m.execute clock fuel s ⟨out, diag⟩) (m'.execute clock' fuel s ⟨out, diag⟩) := by
    cases run : m.execute clock fuel s ⟨out, diag⟩ with
    | none =>
      rw [sim.execute_eq_none start run clock']
      exact .none
    | some e =>
      obtain ⟨e', run', mutes⟩ := execute_muted muted unlimited run clock'
      rw [run']
      exact .some mutes
  refine ⟨ends, fun n scene head => ?_⟩
  have goes' := execute_eq_none_iff.mpr ⟨scene, head⟩
  have goes : m.execute clock n s ⟨out, diag⟩ = none := by
    have related := ends n
    rw [goes'] at related
    cases run : m.execute clock n s ⟨out, diag⟩ with
    | none => rfl
    | some e => rw [run] at related; cases related
  obtain ⟨first, passed⟩ := execute_eq_none_iff.mp goes
  obtain ⟨second, passed', alike⟩ := sim.loopHead start passed clock'
  rw [head.unique passed', alike.silent]

def lastDump : Program :=
  ⟨#["JMP 3", "END", "@trace here"]⟩

def lastDumpMuted : Program :=
  ⟨#["JMP 3", "END", "  "]⟩

theorem dumps_leave_no_trace_on_last_line :
    lastDump.Muted lastDumpMuted ∧
      ∃ e', execute ⟨lastDumpMuted, ⟨⟨4, 8⟩, none⟩⟩ (fun _ => ⟨0⟩) 9
          ⟨Store.initial ⟨4, 8⟩, 1, 0⟩ {} = some e' ∧
        Except.error ⟨4, .endOfProgram⟩ = e'.outcome.map (· + 1) ∧
        2 = e'.scene.state.steps + 1 ∧ e'.scene.streams.diag = {} := by
  have dump : Instruction.Mutes "@trace here" "  " := .dump rfl (List.all_eq_true.mp rfl)
  have muted : lastDump.Muted lastDumpMuted :=
    .cons (.kept (by decide)) (.cons (.kept (by decide)) (.cons dump .nil))
  have seen : (execute ⟨lastDump, ⟨⟨4, 8⟩, none⟩⟩ (fun _ => ⟨0⟩) 9
      ⟨Store.initial ⟨4, 8⟩, 1, 0⟩ {}).map (fun e => (e.outcome, e.scene.state.steps)) =
        some (.error ⟨4, .endOfProgram⟩, 2) := rfl
  have dumps : dumpCount ⟨lastDump, ⟨⟨4, 8⟩, none⟩⟩ (fun _ => ⟨0⟩) 9
      ⟨Store.initial ⟨4, 8⟩, 1, 0⟩ {} = 1 := rfl
  obtain ⟨e, run, shown⟩ := Option.map_eq_some_iff.mp seen
  obtain ⟨outcome, steps⟩ := Prod.mk.inj shown
  have ends := (dumps_leave_no_trace lastDump lastDumpMuted muted ⟨4, 8⟩ (fun _ => ⟨0⟩) (fun _ => ⟨0⟩)
    ⟨Store.initial ⟨4, 8⟩, 1, 0⟩ {} {} rfl).1 9
  rw [dumps, run] at ends
  cases run' : execute ⟨lastDumpMuted, ⟨⟨4, 8⟩, none⟩⟩ (fun _ => ⟨0⟩) 9
      ⟨Store.initial ⟨4, 8⟩, 1, 0⟩ {} with
  | none => rw [run'] at ends; cases ends
  | some e' =>
    rw [run'] at ends
    obtain ⟨mutes⟩ := ends
    exact ⟨muted, e', rfl, outcome.symm.trans mutes.outcome, steps.symm.trans mutes.steps, mutes.diag⟩

end Machine

end RegisterMachine
