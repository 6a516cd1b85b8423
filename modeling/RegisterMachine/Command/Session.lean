import RegisterMachine.Command.Arguments
import RegisterMachine.Machine.Execution
import RegisterMachine.Program.Check
import RegisterMachine.Program.Loading

/-! What the command line program writes and how it exits: with 0 on success, 1 if it cannot do what
it is asked for, 2 if a check finds defects and 3 if a run fails. -/

namespace RegisterMachine.Command

structure Report where
  exit : Nat
  out : ByteArray := .empty
  err : ByteArray := .empty

namespace Report

def refusal (message : String) : Report :=
  { exit := 1, err := ("error: " ++ message ++ "\n").toUTF8 }

end Report

def startBanner : String := "--- program start ---\n"

def opening (m : Machine) : ByteArray :=
  match m.settings.budget with
  | some _ => startBanner.toUTF8
  | none => .empty

def endBanner (elapsed : Duration) : String :=
  s!"\n--- program end ---\nelapsed: {elapsed.milliseconds} ms\n"

def closing (m : Machine) (ending : Ending) : Report :=
  match ending.result, m.settings.budget with
  | .ok summary, some _ => { exit := 0, out := (endBanner summary.elapsed).toUTF8 }
  | .ok _, none => { exit := 0 }
  | .error failure, _ =>
    { exit := 3
      err := ("runtime error: " ++ failure.message ++ "\n" ++
        (m.snapshot ending.scene.state).render).toUTF8 }

def runReport (m : Machine) (ending : Ending) : Report :=
  let last := closing m ending
  { exit := last.exit
    out := opening m ++ ending.scene.streams.out.bytes ++ last.out
    err := ending.scene.streams.diag.bytes ++ last.err }

def Job.prepare (job : Job) (content : Except ReadFailure ByteArray) : Except Report Machine :=
  match Program.load job.file content with
  | .error error => .error (Report.refusal error.message)
  | .ok program =>
    match Window.checked job.base job.top with
    | .error error => .error (Report.refusal error.message)
    | .ok window => .ok { program, settings := { window, budget := job.budget } }

/-- The report of a run of at most `fuel` turns, which is none while the run goes on. -/
def Job.report (job : Job) (content : Except ReadFailure ByteArray) (clock : Clock)
    (fuel : Nat) : Option Report :=
  match job.prepare content with
  | .error report => some report
  | .ok m => (m.execute clock fuel m.initial {}).map (runReport m)

def checkReport (file : String) (content : Except ReadFailure ByteArray) : Report :=
  match Program.load file content with
  | .error error => Report.refusal error.message
  | .ok program =>
    match program.check with
    | .ok count => { exit := 0, out := (s!"OK: {file} ({count} instructions)\n").toUTF8 }
    | .error findings =>
      { exit := 2
        err := (String.join (findings.map fun f => "error: " ++ f.message ++ "\n")).toUTF8 }

def helpReport (page : Page) : Report :=
  { exit := 0, out := page.text.toUTF8 }

def versionReport : Report :=
  { exit := 0, out := versionText.toUTF8 }

/-- Without a command the help is written as an error, with one more line end after it. -/
def noCommandReport : Report :=
  { exit := 1, err := (Page.top.text ++ "\n").toUTF8 }

/-- The report on a request, for what the files at all paths are read to. -/
def Request.report (read : String → Except ReadFailure ByteArray) (clock : Clock) (fuel : Nat) :
    Request → Option Report
  | .help page => some (helpReport page)
  | .version => some versionReport
  | .noCommand => some noCommandReport
  | .check file => some (checkReport file (read file))
  | .run options =>
    match options.job with
    | .error error => some (Report.refusal error.message)
    | .ok job => job.report (read job.file) clock fuel

end RegisterMachine.Command
