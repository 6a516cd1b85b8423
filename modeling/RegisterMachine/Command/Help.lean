/-! The help pages of the command line. -/

namespace RegisterMachine.Command

inductive Page where
  | top
  | run
  | check
  | help
  deriving DecidableEq, Repr

def Page.lines : Page → List String
  | .top =>
    ["Run PL/0 machine programs",
      "",
      "Usage: pl0 [COMMAND]",
      "",
      "Commands:",
      "  run    Execute a program from line 1",
      "  check  Decode every line without executing",
      "  help   Print this message or the help of the given subcommand(s)",
      "",
      "Options:",
      "  -v, --version  Print version and exit",
      "  -h, --help     Print help"]
  | .run =>
    ["Execute a program from line 1",
      "",
      "Usage: pl0 run [OPTIONS] [FILE]",
      "",
      "Arguments:",
      "  [FILE]  Instruction file, one instruction per line",
      "",
      "Options:",
      "  -t, --timeout [<MS>]      Enable timing and abort after MS milliseconds (default 5000)",
      "      --base <ADDR>         Lowest addressable memory address [default: 800]",
      "      --max-address <ADDR>  One past the highest address; SP and FP start here " ++
        "[default: 1000]",
      "  -h, --help                Print help"]
  | .check =>
    ["Decode every line without executing",
      "",
      "Usage: pl0 check <FILE>",
      "",
      "Arguments:",
      "  <FILE>  Instruction file",
      "",
      "Options:",
      "  -h, --help  Print help"]
  | .help =>
    ["Print this message or the help of the given subcommand(s)",
      "",
      "Usage: pl0 help [COMMAND]...",
      "",
      "Arguments:",
      "  [COMMAND]...  Print help for the subcommand(s)"]

def Page.text (page : Page) : String :=
  String.join (page.lines.map (· ++ "\n"))

def versionText : String := "pl0 0.1.0\n"

end RegisterMachine.Command
