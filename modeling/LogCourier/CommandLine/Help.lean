import LogCourier.CommandLine

/-!
# What the program says about itself

The version, and for each command how it is used.
-/

namespace LogCourier.CommandLine

/-- The number of the version. -/
def version : String := "0.1.0"

/-- What the program answers when asked for its version. -/
def versionText : String := s!"dltrouter {version}\n"

/-- Lines of text. -/
def ofLines (lines : List String) : String :=
  String.join (lines.map (· ++ "\n"))

/-- **How a command is used.** -/
def helpText : Topic → String
  | .program => ofLines
    ["Routes application records and streams files as DLT log messages",
      "",
      "Usage: dltrouter [OPTIONS] <COMMAND>",
      "",
      "Commands:",
      "  serve     Run the router until interrupted",
      "  transfer  Stream a file as DLT messages",
      "  config    Print the effective configuration",
      "  help      Print this message or the help of the given subcommand(s)",
      "",
      "Options:",
      "  -c, --config <CONFIG>  Configuration file path",
      "  -v, --verbose          Log at debug level unless RUST_LOG is set",
      "  -h, --help             Print help",
      "  -V, --version          Print version"]
  | .serve => ofLines
    ["Run the router until interrupted",
      "",
      "Usage: dltrouter serve",
      "",
      "Options:",
      "  -h, --help  Print help"]
  | .transfer => ofLines
    ["Stream a file as DLT messages",
      "",
      "Usage: dltrouter transfer [OPTIONS] <FILE>",
      "",
      "Arguments:",
      "  <FILE>  File to stream",
      "",
      "Options:",
      "      --delete         Delete the file after a complete transfer",
      "      --appid <APPID>  Application id of the emitted messages [default: FT]",
      "      --ctxid <CTXID>  Context id of the emitted messages [default: FT]",
      "      --local          Stream from this process instead of asking a running router",
      "  -h, --help           Print help"]
  | .config => ofLines
    ["Print the effective configuration",
      "",
      "Usage: dltrouter config",
      "",
      "Options:",
      "  -h, --help  Print help"]
  | .help => ofLines
    ["Print this message or the help of the given subcommand(s)",
      "",
      "Usage: dltrouter help [COMMAND]...",
      "",
      "Arguments:",
      "  [COMMAND]...  Print help for the subcommand(s)"]

/-- What is said when the words make no sense. -/
def usageText : String := ofLines
  ["error: these arguments make no sense",
    "",
    "Usage: dltrouter [OPTIONS] <COMMAND>",
    "",
    "For more information, try '--help'."]

end LogCourier.CommandLine
