/-!
# Replies

What a run of the program says, and whether it went well.
-/

namespace TestDouble.CommandLine

/-- A setting without which the command cannot go on, but whose entry is blank. -/
inductive Gap where
  | indent
  | workers
  | outputDirectory
  deriving DecidableEq, Repr

def Gap.message : Gap → String
  | indent => "'<' not supported between instances of 'list' and 'int'"
  | workers => "'<' not supported between instances of 'int' and 'list'"
  | outputDirectory => "expected str, bytes or os.PathLike object, not list"

structure Reply where
  exitCode : Nat
  out : String := ""
  /-- The log and the messages, line by line. -/
  err : List String := []
  /-- What made the run break off. -/
  gap? : Option Gap := none
  deriving DecidableEq, Repr

/-- The reply of a run that breaks off when some lines have been said. -/
def Reply.brokenOff (err : List String) (gap : Gap) : Reply where
  exitCode := 1
  err := err ++ [s!"Error: {gap.message}"]
  gap? := some gap

/-- Lines as a text. -/
def unlines (lines : List String) : String :=
  String.join (lines.map (· ++ "\n"))

def Reply.errText (reply : Reply) : String :=
  unlines reply.err

end TestDouble.CommandLine
