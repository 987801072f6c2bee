import TestDouble.CommandLine.Reply
import TestDouble.CommandLine.Request
import TestDouble.Files.Basic
import TestDouble.Outcome
import TestDouble.Text.Utf8

/-!
# Generating

The command. It reads sources, has an outcome for each protocol in them, selects outcomes by the
name of the protocol, and puts the test doubles where they were asked for. It succeeds when all
selected outcomes are test doubles; an outcome that was not selected counts neither way. It breaks
off where it needs a setting whose entry is blank, and not before.

What the command says is a value, the reply; of its effects only those on files are effects.
-/

namespace TestDouble.CommandLine

/-! ## Sources -/

/-- Why there are no sources. -/
inductive InputFault where
  | absent (path : String)
  | file (fault : FileFault)
  | notText (malformed : Text.Utf8.Malformed)
  deriving DecidableEq, Repr

def InputFault.message : InputFault → String
  | absent path => s!"No such file or directory: {path}"
  | file fault => fault.message
  | notText malformed => malformed.message

/-- The order of paths: name by name, and a name by the code points in it. A path comes before what
lies below it. -/
def comesBefore (names others : List String) : Bool :=
  !List.lex others names fun a b ↦ List.lex a.toList b.toList fun c d ↦ c.toNat < d.toNat

section

variable {m : Type → Type} [Monad m] [FileSystem m]

/-- The paths of everything below a directory that is named like a source, in the order of the names
on the way. -/
def sourcesBelow (path : Path) : m (List Path) := do
  let found := (← FileSystem.below path).filter fun names ↦ (names.getLastD "").endsWith ".swift"
  return (found.mergeSort comesBefore).map fun names ↦ path.append { parts := names }

/-- The paths of the sources that an argument stands for. -/
def locate (argument : String) : m (Except InputFault (List Path)) := do
  let path := Path.ofText argument
  match ← FileSystem.kind? path with
  | .ok (some .directory) => return .ok (← sourcesBelow path)
  | .ok (some .file) => return .ok [path]
  | .ok none => return .error (.absent argument)
  | .error refusal => return .error (.file ⟨refusal, path⟩)

def locateAll : List String → m (Except InputFault (List Path))
  | [] => return .ok []
  | argument :: arguments => do
    match ← locate argument with
    | .error fault => return .error fault
    | .ok paths => return (paths ++ ·) <$> (← locateAll arguments)

def readSource (path : Path) : m (Except InputFault Source) := do
  match ← FileSystem.read path with
  | .error refusal => return .error (.file ⟨refusal, path⟩)
  | .ok bytes =>
    match Text.Utf8.decode bytes with
    | .error malformed => return .error (.notText malformed)
    | .ok text =>
      return .ok ⟨path.text, .ofList (Text.unifyLineEnds text.toList)⟩

/-- The sources that could be read up to the first fault, with what there was to tell. -/
structure Sources where
  notices : List Notice := []
  result : Except InputFault (List Source)

def readSources : List Path → m Sources
  | [] => return { result := .ok [] }
  | path :: paths => do
    let notice := .reading path.text
    match ← readSource path with
    | .error fault => return { notices := [notice], result := .error fault }
    | .ok source =>
      let others ← readSources paths
      return { notices := notice :: others.notices, result := (source :: ·) <$> others.result }

/-- The sources of the command. -/
def Settings.sources (settings : Settings) : m Sources := do
  match ← locateAll settings.paths with
  | .error fault => return { result := .error fault }
  | .ok paths => readSources paths

end

/-! ## Outcomes -/

namespace Settings

def style (settings : Settings) : Entry (Except Style.Refusal Style) :=
  settings.indent.map fun indent ↦
    Style.Draft.check { indent, isPublic? := settings.isPublic? }

/-- Whether an outcome was asked for. That of a text as a whole has no name to ask for. -/
def selects (settings : Settings) (outcome : Outcome) : Bool :=
  (settings.only.isEmpty || outcome.protocol?.any fun name ↦ settings.only.contains (.value name))
    && !outcome.protocol?.any fun name ↦ settings.skip.contains (.value name)

/-- The outcomes that were asked for. -/
def outcomes (settings : Settings) (style : Style) (sources : List Source) : List Outcome :=
  (Outcome.ofSources style sources).filter settings.selects

/-- Whether notices of a level are shown: warnings are from the start, and every mention of the
switch reaches one level down. -/
def shows (settings : Settings) (level : Notice.Level) : Bool :=
  Notice.Level.warning.rank - settings.verbosity ≤ level.rank

/-- The lines of the log. -/
def log (settings : Settings) (notices : List Notice) : List String :=
  (notices.filter fun notice ↦ settings.shows notice.level).map Notice.line

/-- How many sources can be worked on at a time. -/
def workers (settings : Settings) (processors : Nat) (sources : List Source) : Entry Int :=
  (settings.workers?.getD (.value processors)).map fun count ↦ max 1 (min count sources.length)

/-- What there is to tell about the work on the sources. -/
def workNotices (settings : Settings) (processors : Nat) (style : Style) (sources : List Source) :
    Entry (List Notice) :=
  if sources.isEmpty then .value []
  else
    (settings.workers processors sources).map fun workers ↦
      .working sources.length workers :: sources.flatMap (Outcome.notices style .empty)

end Settings

/-- The line about an outcome that is no test double. -/
def faultLine? (outcome : Outcome) : Option String :=
  outcome.fault?.map fun fault ↦ s!"Error: {outcome.source}: {fault.text}"

def exitCode (outcomes : List Outcome) : Nat :=
  if outcomes.all Outcome.isMade then 0 else 1

/-! ## Writing -/

/-- The name of the file for an outcome and what goes into it. -/
def fileOf? : Outcome → Option (String × String)
  | .made _ _ _ fileName text => some (fileName, text)
  | .refused .. | .unreadable .. => none

/-- Files written before the first fault, with what there was to tell. -/
structure Written where
  notices : List Notice := []
  result : Except FileFault Nat

section

variable {m : Type → Type} [Monad m] [FileSystem m]

/-- Writes files into a directory, one after the other, when `count` have been written. -/
def writeFiles (directory : Path) (count : Nat) : List (String × String) → m Written
  | [] => return { result := .ok count }
  | (fileName, text) :: files => do
    let path := directory.append (.ofText fileName)
    match ← FileSystem.write path text with
    | .error refusal => return { result := .error ⟨refusal, path⟩ }
    | .ok () =>
      let others ← writeFiles directory (count + 1) files
      let notice := .written path.text
      return { others with notices := notice :: others.notices }

/-- Writes the test doubles among the outcomes into a directory, which is made if need be. -/
def writeOutcomes (directory : Path) (outcomes : List Outcome) : m Written := do
  match ← FileSystem.ensureDirectory directory with
  | .error fault => return { result := .error fault }
  | .ok () => writeFiles directory 0 (outcomes.filterMap fileOf?)

/-! ## The command -/

/-- What is said about a fault that ends the command. -/
def Settings.failure (settings : Settings) (what message : String) : List String :=
  settings.log [.failed what message] ++ [s!"Error: {message}"]

/-- Puts the outcomes where they were asked for, after what `err` has been said. -/
def deliver (settings : Settings) (err : List String) (outcomes : List Outcome) : m Reply := do
  let exitCode := exitCode outcomes
  let err := err ++ outcomes.filterMap faultLine?
  let closing := if outcomes.isEmpty then ["No protocol declarations found"] else []
  match settings.destination with
  | .json =>
    let report := (Text.Json.list (outcomes.map Outcome.json)).render 2
    return { exitCode, out := report ++ "\n", err := err ++ closing }
  | .stdout =>
    let texts := (outcomes.filterMap fileOf?).map (·.2)
    return { exitCode, out := String.join texts, err := err ++ closing }
  | .files =>
    match settings.outputDirectory with
    | .blank => return .brokenOff err .outputDirectory
    | .value directory =>
      let written ← writeOutcomes (.ofText directory) outcomes
      let err := err ++ settings.log written.notices
      match written.result with
      | .error fault =>
        let failure := settings.failure "Could not write output" fault.message
        return { exitCode := 1, err := err ++ failure }
      | .ok count =>
        let summary := s!"Generated {count} mocks in {directory}"
        return { exitCode, err := err ++ summary :: closing }

/-- Runs the command on a machine with so many processors. -/
def generate (processors : Nat) (settings : Settings) : m Reply := do
  match settings.style with
  | .blank => return .brokenOff [] .indent
  | .value (.error refusal) =>
    return { exitCode := 1, err := settings.failure "Invalid input" refusal.message }
  | .value (.ok style) =>
    let sources ← settings.sources
    let err := settings.log sources.notices
    match sources.result with
    | .error fault =>
      return { exitCode := 1, err := err ++ settings.failure "Invalid input" fault.message }
    | .ok sources =>
      match settings.workNotices processors style sources with
      | .blank => return .brokenOff err .workers
      | .value notices =>
        deliver settings (err ++ settings.log notices) (settings.outcomes style sources)

end

end TestDouble.CommandLine
