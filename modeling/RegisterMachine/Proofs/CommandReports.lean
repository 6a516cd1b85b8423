import Mathlib.Data.Option.Defs
import RegisterMachine.Command.Session
import RegisterMachine.Proofs.ErrorLines
import RegisterMachine.Proofs.StreamLimits

/-! What the command line reports. A run does not depend on what is on its streams already, with a
limit of time or without one; so what a report has between its banners is what the run writes anywhere
else. The report of a check has one line for each finding. -/

namespace RegisterMachine

/-- The executions have the same result and leave the same state, and the second has written what the
first has after the bytes `before`. -/
structure Ending.Follows (before : Streams) (e e' : Ending) : Prop where
  result : e'.result = e.result
  scene : e.scene.Parallel 0 (Streams.Continue before) e'.scene

namespace Machine

section Frame

variable {m : Machine} {clock : Clock} {before : Streams} {a b : Scene}

theorem advance_parallel {lead : Nat} {S : Streams → Streams → Prop} {excused : Cause → Prop}
    (pace : Streams.KeepPace S excused) (alike : a.Parallel lead S b) (elapsed : Duration) :
    Turn.Matches (Scene.Parallel lead S) id excused (m.advance elapsed a) (m.advance elapsed b) := by
  cases late : m.expired? elapsed with
  | some budget =>
    rw [advance_of_expired late, advance_of_expired late, alike.pc]
    exact .inr ⟨_, b, rfl, rfl, alike⟩
  | none =>
    rw [advance_of_unexpired late, advance_of_unexpired late]
    exact turn_parallel pace a b alike

theorem executeFrom_follows (alike : a.Parallel 0 (Streams.Continue before) b) (fuel look : Nat) :
    Option.Rel (Ending.Follows before) (m.executeFrom clock fuel look a)
      (m.executeFrom clock fuel look b) := by
  induction fuel generalizing look a b with
  | zero => exact .none
  | succ fuel ih =>
    have both := advance_parallel (m := m) (Streams.keepPace_continue before) alike (clock look)
    rw [executeFrom, executeFrom]
    generalize m.advance (clock look) a = turn, m.advance (clock look) b = turn' at both
    cases turn with
    | goes next =>
      obtain ⟨next', rfl, alike⟩ := both.of_goes
      exact ih alike (look + 1)
    | halts next =>
      cases turn' with
      | halts next' => exact .some ⟨by dsimp only; rw [both.state_eq], both⟩
      | goes next' => exact both.elim
      | fails failure next' => exact both.elim
    | fails failure next =>
      obtain excuse | ⟨failure', next', rfl, same, alike⟩ := both
      · exact excuse.elim
      · exact .some ⟨congrArg Except.error same, alike⟩

end Frame

/-- Within `fuel` turns a new machine ends with this result in this state, and it has written these
bytes after whatever was on the streams before. -/
def RunsTo (m : Machine) (clock : Clock) (fuel : Nat) (result : Except Failure Summary) (left : State)
    (written : Channel → ByteArray) : Prop :=
  ∀ before : Streams, (∀ channel, (before.get channel).limit = none) →
    ∃ after, m.execute clock fuel m.initial before = some ⟨result, left, after⟩ ∧
      ∀ channel, (after.get channel).bytes = (before.get channel).bytes ++ written channel

variable {m : Machine} {clock : Clock} {fuel : Nat} {result : Except Failure Summary} {left : State}
  {written : Channel → ByteArray}

theorem runsTo_iff :
    m.RunsTo clock fuel result left written ↔
      ∃ streams, m.execute clock fuel m.initial {} = some ⟨result, left, streams⟩ ∧
        ∀ channel, (streams.get channel).bytes = written channel := by
  constructor
  · intro runs
    obtain ⟨after, run, bytes⟩ := runs {} fun channel => by cases channel <;> rfl
    refine ⟨after, run, fun channel => ?_⟩
    have empty : ((({} : Streams).get channel).bytes) = ByteArray.empty := by cases channel <;> rfl
    rw [bytes, empty, ByteArray.empty_append]
  · rintro ⟨streams, run, bytes⟩ before unlimited
    have start : Scene.Parallel 0 (Streams.Continue before) ⟨m.initial, {}⟩ ⟨m.initial, before⟩ :=
      ⟨rfl, rfl, rfl, Streams.continue_fresh unlimited⟩
    have both : Option.Rel (Ending.Follows before) (m.executeFrom clock fuel 0 ⟨m.initial, {}⟩)
        (m.executeFrom clock fuel 0 ⟨m.initial, before⟩) := executeFrom_follows start fuel 0
    rw [execute] at run
    rw [run] at both
    generalize again : m.executeFrom clock fuel 0 ⟨m.initial, before⟩ = ending? at both
    obtain @⟨-, ⟨result', left', after⟩, same, alike⟩ := both
    obtain rfl : result' = result := same
    obtain rfl : left = left' := alike.state_eq
    refine ⟨after, again, fun channel => ?_⟩
    rw [← bytes channel]
    exact alike.streams.bytes channel

end Machine

theorem Program.load_toUTF8 (path source : String) :
    Program.load path (.ok source.toUTF8) = .ok (Program.ofSource source) := by
  have decodes : String.fromUTF8? source.toUTF8 = some source := by
    simp [String.fromUTF8?, String.fromUTF8, source.isValidUTF8]
  rw [Program.load, decodes]

namespace Command

def Job.whenTimed (job : Job) (text : String) : ByteArray :=
  if job.budget.isSome then text.toUTF8 else .empty

def Job.machine (job : Job) (program : Program) (window : Window) : Machine :=
  { program, settings := { window, budget := job.budget } }

/-- What there is to report on a job: it cannot be loaded or has no window, or its run comes to its
end or fails. -/
inductive Job.Answered (read : String → Except ReadFailure ByteArray) (clock : Clock) (fuel : Nat)
    (job : Job) : Report → Prop where
  | unloadable {error : LoadError}
      (load : Program.load job.file (read job.file) = .error error) :
      Answered read clock fuel job
        ⟨1, .empty, ("error: " ++ error.message ++ "\n").toUTF8⟩
  | noWindow {program : Program} {error : WindowError}
      (load : Program.load job.file (read job.file) = .ok program)
      (window : Window.checked job.base job.top = .error error) :
      Answered read clock fuel job
        ⟨1, .empty, ("error: " ++ error.message ++ "\n").toUTF8⟩
  | completed {program : Program} {w : Window} {summary : Summary} {left : State}
      {written : Channel → ByteArray}
      (load : Program.load job.file (read job.file) = .ok program)
      (window : Window.checked job.base job.top = .ok w)
      (run : (job.machine program w).RunsTo clock fuel (.ok summary) left written) :
      Answered read clock fuel job
        ⟨0, job.whenTimed "--- program start ---\n" ++ written .out ++
            job.whenTimed ("\n--- program end ---\nelapsed: " ++
              toString summary.elapsed.milliseconds ++ " ms\n"),
          written .diag⟩
  | failed {program : Program} {w : Window} {failure : Failure} {left : State}
      {written : Channel → ByteArray}
      (load : Program.load job.file (read job.file) = .ok program)
      (window : Window.checked job.base job.top = .ok w)
      (run : (job.machine program w).RunsTo clock fuel (.error failure) left written) :
      Answered read clock fuel job
        ⟨3, job.whenTimed "--- program start ---\n" ++ written .out,
          written .diag ++ ("runtime error: " ++ failure.message ++ "\n" ++
            ((job.machine program w).snapshot left).render).toUTF8⟩

def complaints (findings : List Finding) : String :=
  String.join (findings.map fun f => "error: " ++ f.message ++ "\n")

inductive CheckAnswered (read : String → Except ReadFailure ByteArray) (file : String) :
    Report → Prop where
  | unloadable {error : LoadError} (load : Program.load file (read file) = .error error) :
      CheckAnswered read file ⟨1, .empty, ("error: " ++ error.message ++ "\n").toUTF8⟩
  | sound {program : Program} {count : Nat} (load : Program.load file (read file) = .ok program)
      (check : program.check = .ok count) :
      CheckAnswered read file
        ⟨0, ("OK: " ++ file ++ " (" ++ toString count ++ " instructions)\n").toUTF8, .empty⟩
  | faulty {program : Program} {findings : List Finding}
      (load : Program.load file (read file) = .ok program)
      (check : program.check = .error findings) :
      CheckAnswered read file ⟨2, .empty, (complaints findings).toUTF8⟩

variable {read : String → Except ReadFailure ByteArray} {clock : Clock} {fuel : Nat} {job : Job}
  {report : Report}

theorem opening_machine (job : Job) (program : Program) (window : Window) :
    opening (job.machine program window) = job.whenTimed "--- program start ---\n" := by
  obtain ⟨file, budget, base, top⟩ := job
  cases budget <;> rfl

theorem closing_completed (job : Job) (program : Program) (window : Window) (summary : Summary)
    (scene : Scene) :
    closing (job.machine program window) ⟨.ok summary, scene⟩ =
      ⟨0, job.whenTimed ("\n--- program end ---\nelapsed: " ++
        toString summary.elapsed.milliseconds ++ " ms\n"), .empty⟩ := by
  obtain ⟨file, budget, base, top⟩ := job
  cases budget <;> rfl

theorem runReport_completed (job : Job) (program : Program) (window : Window) (summary : Summary)
    (scene : Scene) :
    runReport (job.machine program window) ⟨.ok summary, scene⟩ =
      ⟨0, job.whenTimed "--- program start ---\n" ++ scene.streams.out.bytes ++
          job.whenTimed ("\n--- program end ---\nelapsed: " ++
            toString summary.elapsed.milliseconds ++ " ms\n"),
        scene.streams.diag.bytes⟩ := by
  rw [runReport, closing_completed, opening_machine, ByteArray.append_empty]

theorem runReport_failed (job : Job) (program : Program) (window : Window) (failure : Failure)
    (scene : Scene) :
    runReport (job.machine program window) ⟨.error failure, scene⟩ =
      ⟨3, job.whenTimed "--- program start ---\n" ++ scene.streams.out.bytes,
        scene.streams.diag.bytes ++ ("runtime error: " ++ failure.message ++ "\n" ++
          ((job.machine program window).snapshot scene.state).render).toUTF8⟩ := by
  rw [runReport, opening_machine, closing]
  simp only [ByteArray.append_empty]

theorem Job.prepare_eq_ok {program : Program} {w : Window}
    (load : Program.load job.file (read job.file) = .ok program)
    (window : Window.checked job.base job.top = .ok w) :
    job.prepare (read job.file) = .ok (job.machine program w) := by
  rw [Job.prepare, load]
  dsimp only
  rw [window]
  rfl

theorem Job.answered_of_report (reports : job.report (read job.file) clock fuel = some report) :
    job.Answered read clock fuel report := by
  cases load : Program.load job.file (read job.file) with
  | error error =>
    rw [Job.report, Job.prepare, load] at reports
    cases reports
    exact .unloadable load
  | ok program =>
    cases window : Window.checked job.base job.top with
    | error error =>
      rw [Job.report, Job.prepare, load] at reports
      dsimp only at reports
      rw [window] at reports
      cases reports
      exact .noWindow load window
    | ok w =>
      rw [Job.report, Job.prepare_eq_ok load window] at reports
      obtain ⟨⟨result, left, streams⟩, run, rfl⟩ := Option.map_eq_some_iff.mp reports
      have runs := Machine.runsTo_iff.mpr ⟨streams, run, fun channel => rfl⟩
      cases result with
      | ok summary =>
        rw [runReport_completed]
        exact .completed load window runs
      | error failure =>
        rw [runReport_failed]
        exact .failed load window runs

theorem Job.report_of_answered (answered : job.Answered read clock fuel report) :
    job.report (read job.file) clock fuel = some report := by
  cases answered with
  | unloadable load =>
    rw [Job.report, Job.prepare, load]
    rfl
  | noWindow load window =>
    rw [Job.report, Job.prepare, load]
    dsimp only
    rw [window]
    rfl
  | completed load window run =>
    obtain ⟨streams, run, bytes⟩ := Machine.runsTo_iff.mp run
    rw [Job.report, Job.prepare_eq_ok load window]
    dsimp only
    rw [run, Option.map_some, runReport_completed, ← bytes .out, ← bytes .diag]
    rfl
  | failed load window run =>
    obtain ⟨streams, run, bytes⟩ := Machine.runsTo_iff.mp run
    rw [Job.report, Job.prepare_eq_ok load window]
    dsimp only
    rw [run, Option.map_some, runReport_failed, ← bytes .out, ← bytes .diag]
    rfl

theorem checkReport_eq_iff {file : String} :
    checkReport file (read file) = report ↔ CheckAnswered read file report := by
  constructor
  · rintro rfl
    rw [checkReport]
    cases load : Program.load file (read file) with
    | error error => exact .unloadable load
    | ok program =>
      dsimp only
      cases check : program.check with
      | ok count => exact .sound load check
      | error findings => exact .faulty load check
  · intro answered
    cases answered with
    | unloadable load => rw [checkReport, load]; rfl
    | sound load check => rw [checkReport, load]; dsimp only; rw [check]; rfl
    | faulty load check => rw [checkReport, load]; dsimp only; rw [check]; rfl

theorem lines_of_complaints {program : Program} {findings : List Finding}
    (check : program.check = .error findings) :
    Text.lines (complaints findings).toList =
      findings.map fun f => ("error: " ++ f.message).toList := by
  have found : findings = program.findings := by
    rw [Program.check] at check
    split at check
    · cases check
    · exact (Except.error.inj check).symm
  rw [found]
  exact program.lines_of_findings "error: " rfl

/-- The command line agrees with the machine and with the check of programs. A job is reported exactly as
its loading, its window and its run on any streams say, a check exactly as its loading and its findings
say; and the findings are told on one line each. -/
theorem reports_agree_with_runs_and_checks (read : String → Except ReadFailure ByteArray)
    (clock : Clock) (fuel : Nat) :
    (∀ options job, options.job = .ok job → ∀ report,
      (Request.run options).report read clock fuel = some report ↔
        job.Answered read clock fuel report) ∧
    (∀ file report, (Request.check file).report read clock fuel = some report ↔
      CheckAnswered read file report) ∧
    ∀ (program : Program) (findings : List Finding), program.check = .error findings →
      Text.lines (complaints findings).toList =
        findings.map fun f => ("error: " ++ f.message).toList := by
  refine ⟨fun options job asked report => ?_, fun file report => ?_, fun program findings check => ?_⟩
  · rw [Request.report, asked]
    exact ⟨Job.answered_of_report, Job.report_of_answered⟩
  · rw [Request.report, Option.some.injEq]
    exact checkReport_eq_iff
  · exact lines_of_complaints check

def emptyStackFiles (path : String) : Except ReadFailure ByteArray :=
  if path = "/srv/p" then .ok "PRINT 7\nPOP A\n".toUTF8
  else .error (.other "Permission denied (os error 13)")

def emptyStackJob : Job :=
  { file := "/srv/p", budget := some (.ofMilliseconds 5), base := 800, top := 1000 }

theorem load_emptyStackFiles :
    Program.load emptyStackJob.file (emptyStackFiles emptyStackJob.file) =
      .ok (Program.ofSource "PRINT 7\nPOP A\n") := by
  have content : emptyStackFiles emptyStackJob.file = .ok "PRINT 7\nPOP A\n".toUTF8 := if_pos rfl
  rw [content, Program.load_toUTF8]

def emptyStackMachine : Machine :=
  emptyStackJob.machine (Program.ofSource "PRINT 7\nPOP A\n") ⟨800, 1000⟩

theorem emptyStackMachine_runsTo :
    emptyStackMachine.RunsTo (fun _ => ⟨0⟩) 3 (.error ⟨2, .stackUnderflow 1000⟩)
      { emptyStackMachine.initial with pc := 2, steps := 2 }
      fun | .out => "7".toUTF8 | .diag => .empty := by
  refine Machine.runsTo_iff.mpr ⟨{ out := { bytes := "7".toUTF8 } }, ?_, ?_⟩
  · rfl
  · intro channel
    cases channel <;> rfl

theorem reports_agree_with_runs_and_checks_on_empty_stack :
    RunOptions.job { file := some "/srv/p", timeout := some (some "5") } = .ok emptyStackJob ∧
    (Request.run { file := some "/srv/p", timeout := some (some "5") }).report emptyStackFiles
        (fun _ => ⟨0⟩) 3 =
      some ⟨3, "--- program start ---\n7".toUTF8,
        ("runtime error: stack underflow (SP=1000) at line 2\n--- machine state at line 2 ---\n" ++
          "  line 2: POP A\n  A=0 B=0 C=0\n  PC=2 FP=1000 SP=1000\n  stack: (empty)\n").toUTF8⟩ ∧
    (Request.check "q").report emptyStackFiles (fun _ => ⟨0⟩) 3 =
      some ⟨1, .empty, "error: cannot read 'q': Permission denied (os error 13)\n".toUTF8⟩ ∧
    (Program.ofSource "POP X\nJMP 5\n").check =
      .error [⟨1, .undecodable (.unknownRegister "X")⟩, ⟨2, .jumpOutside 5 2⟩] ∧
    Text.lines (complaints [⟨1, .undecodable (.unknownRegister "X")⟩, ⟨2, .jumpOutside 5 2⟩]).toList =
      ["error: line 1: unknown register 'X'".toList,
        "error: line 2: jump target 5 is outside the program (1..=2)".toList] := by
  have agree := reports_agree_with_runs_and_checks emptyStackFiles (fun _ => ⟨0⟩) 3
  have asked : RunOptions.job { file := some "/srv/p", timeout := some (some "5") } =
      .ok emptyStackJob := by rfl
  have faulty : (Program.ofSource "POP X\nJMP 5\n").check =
      .error [⟨1, .undecodable (.unknownRegister "X")⟩, ⟨2, .jumpOutside 5 2⟩] := by decide
  have report := (agree.1 _ _ asked _).mpr
    (.failed load_emptyStackFiles (by rfl) emptyStackMachine_runsTo)
  have unread : Program.load "q" (emptyStackFiles "q") =
      .error (.unreadable "q" "Permission denied (os error 13)") := by rfl
  refine ⟨asked, report.trans (congrArg some ?_), ?_, faulty, agree.2.2 _ _ faulty⟩
  · rw [Report.mk.injEq]
    exact ⟨rfl, by decide +kernel, by decide +kernel⟩
  · refine ((agree.2.1 _ _).mpr (.unloadable unread)).trans (congrArg some ?_)
    rw [Report.mk.injEq]
    exact ⟨rfl, rfl, by decide +kernel⟩

end Command

end RegisterMachine
