import TestDouble.CommandLine.Switch

/-!
# Help

What the command line prints when it is asked for help.
-/

namespace TestDouble.CommandLine

/-- How to use the program. -/
def programHelp : List String :=
  ["usage: swift-mock-generator [-h] \x7bgenerate\x7d ...",
   "",
   "Generate Swift mock classes from protocol declarations",
   "",
   "positional arguments:",
   "  \x7bgenerate\x7d  Available commands",
   "    generate  Generate mocks for the protocols in Swift files (default)",
   "",
   "options:",
   "  -h, --help  show this help message and exit"]

/-- How to use the command. -/
def generateHelp : List String :=
  ["usage: swift-mock-generator generate [-h] [--output-dir OUTPUT_DIR]",
   "                                     [--stdout | --json]",
   "                                     [--public | --internal] [--indent INDENT]",
   "                                     [--workers WORKERS] [--include PROTOCOL]",
   "                                     [--exclude PROTOCOL] [--verbose]",
   "                                     paths [paths ...]",
   "",
   "positional arguments:",
   "  paths                 Swift files, or directories searched recursively for",
   "                        *.swift",
   "",
   "options:",
   "  -h, --help            show this help message and exit",
   "  --output-dir OUTPUT_DIR, -o OUTPUT_DIR",
   "                        Directory mocks are written to (default: current",
   "                        directory)",
   "  --stdout              Print generated mocks instead of writing files",
   "  --json                Print a JSON report of all results instead of writing",
   "                        files",
   "  --public              Make generated members public",
   "  --internal            Keep generated members internal even for public",
   "                        protocols",
   "  --indent INDENT       Spaces per indentation level (default: 4)",
   "  --workers WORKERS, -j WORKERS",
   "                        Worker processes (default: CPU count; 1 disables the",
   "                        pool)",
   "  --include PROTOCOL    Only generate mocks for this protocol (repeatable)",
   "  --exclude PROTOCOL    Skip this protocol (repeatable)",
   "  --verbose, -v         Increase log verbosity (-v info, -vv debug)"]

def Topic.help : Topic → List String
  | program => programHelp
  | generate => generateHelp

end TestDouble.CommandLine
