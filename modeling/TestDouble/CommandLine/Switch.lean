/-!
# Switches

What can be switched on a command line, and under which names. The program itself knows one switch,
its command knows all of them.
-/

namespace TestDouble.CommandLine

inductive Switch where
  | help
  | outputDirectory
  | toStdout
  | toJson
  | publicMembers
  | internalMembers
  | indent
  | workers
  | only
  | skip
  | verbose
  deriving DecidableEq, Repr

namespace Switch

/-- The names of the switch, in the order in which it is known by them. -/
def names : Switch → List String
  | help => ["-h", "--help"]
  | outputDirectory => ["--output-dir", "-o"]
  | toStdout => ["--stdout"]
  | toJson => ["--json"]
  | publicMembers => ["--public"]
  | internalMembers => ["--internal"]
  | indent => ["--indent"]
  | workers => ["--workers", "-j"]
  | only => ["--include"]
  | skip => ["--exclude"]
  | verbose => ["--verbose", "-v"]

/-- The switch in messages. -/
def label (switch : Switch) : String :=
  String.intercalate "/" switch.names

/-- Whether the switch is followed by a value. -/
def takesValue : Switch → Bool
  | outputDirectory | indent | workers | only | skip => true
  | help | toStdout | toJson | publicMembers | internalMembers | verbose => false

/-- The switch that says the opposite. -/
def rival? : Switch → Option Switch
  | toStdout => some toJson
  | toJson => some toStdout
  | publicMembers => some internalMembers
  | internalMembers => some publicMembers
  | _ => none

end Switch

/-- What a command line is about, and with it help and complaints. -/
inductive Topic where
  | program
  | generate
  deriving DecidableEq, Repr

namespace Topic

def switches : Topic → List Switch
  | program => [.help]
  | generate => [.help, .outputDirectory, .toStdout, .toJson, .publicMembers, .internalMembers,
      .indent, .workers, .only, .skip, .verbose]

/-- All names of switches. -/
def names (topic : Topic) : List (String × Switch) :=
  topic.switches.flatMap fun switch ↦ switch.names.map (·, switch)

/-- The topic as it is typed. -/
def title : Topic → String
  | program => "swift-mock-generator"
  | generate => "swift-mock-generator generate"

end Topic

end TestDouble.CommandLine
