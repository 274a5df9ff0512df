/-
What the program says about itself: how each tier of the command line is used, the help for
it, and the version.
-/
import InferTrace.Command.Basic

namespace InferTrace.Command

/-- The version of the program. -/
def versionLine : String := "hmtrace 0.1.0"

namespace Tier

/-- The lines that show how a tier is used. -/
def usage : Tier → List String
  | program =>
    ["usage: hmtrace [-h] [--version] [--config CONFIG] [-v] \x7binfer,tokens,ast\x7d ..."]
  | command .infer =>
    ["usage: hmtrace infer [-h] [-f FILE] [--strict]",
     "                     [--output-format \x7bpretty,summary,json\x7d] [--no-snapshots]",
     "                     [--no-color]",
     "                     [expr]"]
  | command verb => ["usage: hmtrace " ++ verb.text ++ " [-h] [-f FILE] [--strict] [expr]"]

/-- The help on the switches of every command. -/
def commonHelp : List String :=
  ["",
   "positional arguments:",
   "  expr                  Expression source text",
   "",
   "options:",
   "  -h, --help            show this help message and exit",
   "  -f FILE, --file FILE  Read the expression from a file",
   "  --strict              Reject unrecognized characters"]

/-- The help after the lines of usage. -/
def details : Tier → List String
  | program =>
    ["",
     "hmtrace — step-by-step Hindley-Milner type inference tracer",
     "",
     "positional arguments:",
     "  \x7binfer,tokens,ast\x7d  Available commands",
     "    infer             Infer the type of an expression",
     "    tokens            Print the token stream",
     "    ast               Print the AST as JSON",
     "",
     "options:",
     "  -h, --help          show this help message and exit",
     "  --version           show program's version number and exit",
     "  --config CONFIG     Path to a .hmtracerc.yml/.json file",
     "  -v, --verbose       Enable debug logging"]
  | command .infer =>
    commonHelp ++
    ["  --output-format \x7bpretty,summary,json\x7d",
     "                        Output format (default: from config, else pretty)",
     "  --no-snapshots        Hide type variable snapshots in the trace",
     "  --no-color            Disable ANSI colors"]
  | command _ => commonHelp

/-- The help for a tier. -/
def help (t : Tier) : String :=
  String.join ((t.usage ++ t.details).map fun line => line ++ "\n")

end Tier

end InferTrace.Command
