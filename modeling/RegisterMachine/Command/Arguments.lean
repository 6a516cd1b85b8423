import RegisterMachine.Command.Help
import RegisterMachine.Duration
import RegisterMachine.Settings
import RegisterMachine.Text.Decimal

/-! Reading the command line from left to right. A help option is answered as soon as it is met, the
version only once everything else has been read. -/

namespace RegisterMachine.Command

open Text

inductive UsageError where
  | unexpected (argument : String)
  | repeated (option : String)
  | missingValue (option : String)
  | invalidValue (value option : String)
  | missingFile
  deriving DecidableEq, Repr

def UsageError.message : UsageError → String
  | .unexpected argument => s!"unexpected argument '{argument}' found"
  | .repeated option => s!"the argument '{option}' cannot be used multiple times"
  | .missingValue option => s!"a value is required for '{option}' but none was supplied"
  | .invalidValue value option => s!"invalid value '{value}' for '{option}'"
  | .missingFile => "a file is required but none was supplied"

inductive Argument where
  | escape
  | long (name : String) (value : Option String)
  | short (letters : List Char)
  | word (text : String)
  deriving DecidableEq, Repr

def Argument.ofString (arg : String) : Argument :=
  match arg.toList with
  | ['-', '-'] => .escape
  | '-' :: '-' :: rest =>
      let name := String.ofList (rest.takeWhile (· != '='))
      match rest.dropWhile (· != '=') with
      | [] => .long name none
      | _ :: value => .long name (some (String.ofList value))
  | '-' :: c :: rest => .short (c :: rest)
  | _ => .word arg

/-- What may be set for a run, as far as it has been given. A timeout can be given without a
value. -/
structure RunOptions where
  file : Option String := none
  timeout : Option (Option String) := none
  base : Option Word := none
  top : Option Word := none
  deriving DecidableEq, Repr

inductive Request where
  | help (page : Page)
  | version
  | noCommand
  | run (options : RunOptions)
  | check (file : String)
  deriving DecidableEq, Repr

inductive Valued where
  | timeout
  | base
  | top
  deriving DecidableEq, Repr

namespace Valued

def name : Valued → String
  | .timeout => "timeout"
  | .base => "base"
  | .top => "max-address"

def find? (name : String) : Option Valued :=
  [timeout, base, top].find? (·.name = name)

end Valued

def addFile (file : Option String) (arg : String) : Except UsageError String :=
  match file with
  | some _ => .error (.unexpected arg)
  | none => if arg = "" then .error (.invalidValue "" "FILE") else .ok arg

namespace RunOptions

def setFile (o : RunOptions) (arg : String) : Except UsageError RunOptions :=
  return { o with file := some (← addFile o.file arg) }

def readAddress (value : String) (option : Valued) : Except UsageError Word :=
  match Word.read? value.toList with
  | some w => .ok w
  | none => .error (.invalidValue value option.name)

/-- Sets an option to its value. No option may be set twice. -/
def set (o : RunOptions) (option : Valued) (value : String) : Except UsageError RunOptions :=
  match option with
  | .timeout =>
    if o.timeout.isSome then .error (.repeated option.name)
    else .ok { o with timeout := some (some value) }
  | .base =>
    if o.base.isSome then .error (.repeated option.name)
    else return { o with base := some (← readAddress value option) }
  | .top =>
    if o.top.isSome then .error (.repeated option.name)
    else return { o with top := some (← readAddress value option) }

def setBare (o : RunOptions) (option : Valued) : Except UsageError RunOptions :=
  match option with
  | .timeout =>
    if o.timeout.isSome then .error (.repeated option.name)
    else .ok { o with timeout := some none }
  | _ => .error (.missingValue option.name)

def settle (o : RunOptions) : Option Valued → Except UsageError RunOptions
  | none => .ok o
  | some option => o.setBare option

/-- Reads the arguments of a run. `waiting` is the option that takes the next argument as its value,
unless that argument starts with a dash. -/
def read (o : RunOptions) (waiting : Option Valued) : List String → Except UsageError Request
  | [] => return .run (← o.settle waiting)
  | arg :: rest =>
    match Argument.ofString arg with
    | .word text =>
      match waiting with
      | some option => do (← o.set option text).read none rest
      | none => do (← o.setFile text).read none rest
    | .escape => do
      let o ← o.settle waiting
      return .run (← rest.foldlM setFile o)
    | .long "help" none => do
      let _ ← o.settle waiting
      return .help .run
    | .long name value => do
      let o ← o.settle waiting
      match Valued.find? name, value with
      | some option, some value => do (← o.set option value).read none rest
      | some option, none => o.read (some option) rest
      | none, _ => .error (.unexpected arg)
    | .short ('h' :: _) => do
      let _ ← o.settle waiting
      return .help .run
    | .short ['t'] => do (← o.settle waiting).read (some .timeout) rest
    | .short ('t' :: '=' :: value) => do
      let o ← o.settle waiting
      (← o.set .timeout (String.ofList value)).read none rest
    | .short ('t' :: value) => do
      let o ← o.settle waiting
      (← o.set .timeout (String.ofList value)).read none rest
    | .short _ => .error (.unexpected arg)

end RunOptions

def readCheck (file : Option String) : List String → Except UsageError Request
  | [] =>
    match file with
    | some file => return .check file
    | none => .error .missingFile
  | arg :: rest =>
    match Argument.ofString arg with
    | .word text => do readCheck (some (← addFile file text)) rest
    | .escape => do
      match ← rest.foldlM (fun file arg => return some (← addFile file arg)) file with
      | some file => return .check file
      | none => .error .missingFile
    | .long "help" none => return .help .check
    | .short ('h' :: _) => return .help .check
    | _ => .error (.unexpected arg)

def readHelp : List String → Except UsageError Request
  | [] => return .help .top
  | ["run"] => return .help .run
  | ["check"] => return .help .check
  | ["help"] => return .help .help
  | arg :: _ => .error (.unexpected arg)

/-- Reads joined flags before the command: whether the version is asked for after them, or nothing
once the help is. -/
def readFlags (version : Bool) : List Char → Except UsageError (Option Bool)
  | [] => return some version
  | 'h' :: _ => return none
  | 'v' :: rest => if version then .error (.repeated "version") else readFlags true rest
  | c :: _ => .error (.unexpected (String.ofList ['-', c]))

def Request.orVersion (version : Bool) : Request → Request
  | .help page => .help page
  | request => if version then .version else request

def readArguments (version : Bool) : List String → Except UsageError Request
  | [] => return Request.noCommand.orVersion version
  | arg :: rest =>
    match Argument.ofString arg with
    | .escape =>
      match rest with
      | [] => return Request.noCommand.orVersion version
      | arg :: _ => .error (.unexpected arg)
    | .long "help" none => return .help .top
    | .long "version" none =>
      if version then .error (.repeated "version") else readArguments true rest
    | .long _ _ => .error (.unexpected arg)
    | .short letters => do
      match ← readFlags version letters with
      | some version => readArguments version rest
      | none => return .help .top
    | .word "run" => return (← RunOptions.read {} none rest).orVersion version
    | .word "check" => return (← readCheck none rest).orVersion version
    | .word "help" => readHelp rest
    | .word _ => .error (.unexpected arg)

def Request.read (args : List String) : Except UsageError Request :=
  readArguments false args

structure Job where
  file : String
  budget : Option Duration
  base : Word
  top : Word
  deriving DecidableEq, Repr

inductive JobError where
  | invalidTimeout (value : String)
  | missingFile
  deriving DecidableEq, Repr

def JobError.message : JobError → String
  | .invalidTimeout value => s!"invalid timeout '{value}'"
  | .missingFile => "run requires an input file"

def defaultBudget : Duration := Duration.ofMilliseconds 5000

def maxMilliseconds : Nat := 18446744073709551615

namespace RunOptions

/-- The file and the time budget. The value of the timeout may in truth be the file: it is, when it
is no number and no file is given elsewhere. -/
def target (o : RunOptions) : Except JobError (String × Option Duration) :=
  match o.timeout with
  | none => withFile o.file none
  | some none => withFile o.file (some defaultBudget)
  | some (some value) =>
    match Decimal.natUpTo? maxMilliseconds value.toList, o.file with
    | some n, file => withFile file (some (Duration.ofMilliseconds n))
    | none, none => .ok (value, some defaultBudget)
    | none, some _ => .error (.invalidTimeout value)
where
  withFile (file : Option String) (budget : Option Duration) :
      Except JobError (String × Option Duration) :=
    match file with
    | some file => .ok (file, budget)
    | none => .error .missingFile

def job (o : RunOptions) : Except JobError Job := do
  let (file, budget) ← o.target
  return {
    file, budget
    base := o.base.getD Window.standard.base
    top := o.top.getD Window.standard.top }

end RunOptions

end RegisterMachine.Command
