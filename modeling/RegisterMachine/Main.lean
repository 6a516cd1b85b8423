import RegisterMachine.Command.Session

/-! The command line program. All that it decides is decided elsewhere; here files are read, the
clock is looked at and bytes are written. -/

namespace RegisterMachine

open Command

def readFailure (code : UInt32) (details : String) : ReadFailure :=
  let number := code.toInt32.toInt.natAbs
  let because (words : String) : ReadFailure := .other s!"{words} (os error {number})"
  match number with
  | 2 => .absent
  | 20 => because "Not a directory"
  | 21 => because "Is a directory"
  | 36 => because "File name too long"
  | _ => because details

def readFile (path : String) : IO (Except ReadFailure ByteArray) := do
  if path.toList.contains (Char.ofNat 0) then
    return .error (.other "file name contained an unexpected NUL byte")
  try
    return .ok (← IO.FS.readBinFile path)
  catch
    | .noFileOrDirectory _ code details => return .error (readFailure code details)
    | .inappropriateType _ code details => return .error (readFailure code details)
    | .invalidArgument _ code details => return .error (readFailure code details)
    | .permissionDenied _ code details => return .error (readFailure code details)
    | error => return .error (.other error.toString)

def send (stream : IO.FS.Stream) (bytes : ByteArray) : IO Unit := do
  unless bytes.isEmpty do
    stream.write bytes
    stream.flush

def sendAll (streams : Streams) : IO (Option String) := do
  try
    send (← IO.getStdout) streams.out.bytes
    send (← IO.getStderr) streams.diag.bytes
    return none
  catch error => return some error.toString

/-- Runs the machine turn by turn; what a turn writes is sent before the next one starts. -/
partial def drive (m : Machine) (start : Nat) (state : State) : IO Ending := do
  let elapsed : Duration := ⟨(← IO.monoNanosNow) - start⟩
  match m.advance elapsed ⟨state, {}⟩ with
  | .halts scene => return ⟨.ok { steps := scene.state.steps, elapsed }, scene⟩
  | .fails failure scene => return ⟨.error failure, scene⟩
  | .goes scene =>
    match ← sendAll scene.streams with
    | none => drive m start scene.state
    | some reason => return ⟨.error ⟨state.pc, .output reason⟩, ⟨state, {}⟩⟩

def finish (report : Report) : IO UInt32 := do
  send (← IO.getStdout) report.out
  send (← IO.getStderr) report.err
  return report.exit.toUInt32

def runJob (job : Job) : IO UInt32 := do
  match job.prepare (← readFile job.file) with
  | .error report => finish report
  | .ok m =>
    send (← IO.getStdout) (opening m)
    finish (closing m (← drive m (← IO.monoNanosNow) m.initial))

def respond : Request → IO UInt32
  | .run options =>
    match options.job with
    | .error error => finish (Report.refusal error.message)
    | .ok job => runJob job
  | .check file => do finish (checkReport file (← readFile file))
  | .help page => finish (helpReport page)
  | .version => finish versionReport
  | .noCommand => finish noCommandReport

end RegisterMachine

open RegisterMachine RegisterMachine.Command in
def main (args : List String) : IO UInt32 :=
  match Request.read args with
  | .error error => finish (Report.refusal error.message)
  | .ok request => respond request
