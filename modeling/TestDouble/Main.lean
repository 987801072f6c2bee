import TestDouble.CommandLine.Run

/-!
# The program

The command line on the files of the machine. Requests are passed on as they are, and the numbers
under which the machine refuses them become refusals.
-/

namespace TestDouble.Machine

/-- The refusal under a number. Some requests give the number with the opposite sign. -/
def refusalOfCode (code : UInt32) (reason : String) : FileSystem.Refusal :=
  let number := min code.toNat (-code).toNat
  match number with
  | 2 => .missing
  | 17 => .present
  | 20 => .notDirectory
  | 21 => .isDirectory
  | 36 => .longName
  | _ => .other number reason.capitalize

def refusal : IO.Error → FileSystem.Refusal
  | .alreadyExists _ code reason | .otherError code reason | .resourceBusy code reason
  | .resourceVanished code reason | .unsupportedOperation code reason | .hardwareFault code reason
  | .unsatisfiedConstraints code reason | .illegalOperation code reason
  | .protocolError code reason | .timeExpired code reason | .interrupted _ code reason
  | .noFileOrDirectory _ code reason | .invalidArgument _ code reason
  | .permissionDenied _ code reason | .resourceExhausted _ code reason
  | .inappropriateType _ code reason | .noSuchThing _ code reason => refusalOfCode code reason
  | .unexpectedEof => .other 5 "Input/output error"
  | .userError reason => .other 5 reason

/-- Makes a request that may be refused. -/
def request (action : IO α) : IO (Except FileSystem.Refusal α) := do
  match ← action.toBaseIO with
  | .ok value => return .ok value
  | .error error => return .error (refusal error)

def kind? (path : Path) : IO (Except FileSystem.Refusal (Option FileKind)) := do
  let directory ← IO.currentDir
  match ← request (directory / path.text).metadata with
  | .ok metadata => return .ok (some (if metadata.type == .dir then .directory else .file))
  | .error .missing | .error .notDirectory => return .ok none
  | .error refusal => return .error refusal

/-- The names that lead to everything below a directory, down to a depth. Links are not followed. -/
def below (path : Path) : Nat → IO (List (List String))
  | 0 => return []
  | depth + 1 => do
    let directory ← IO.currentDir
    match ← request (directory / path.text).readDir with
    | .error _ => return []
    | .ok entries =>
      let branches ← entries.toList.mapM fun entry ↦ do
        let inner ←
          match ← request entry.path.symlinkMetadata with
          | .ok metadata =>
            if metadata.type == .dir then below (path.append ⟨"", [entry.fileName]⟩) depth
            else pure []
          | .error _ => pure []
        return [entry.fileName] :: inner.map (entry.fileName :: ·)
      return branches.flatten

/-- No path is so long that more names would fit. -/
def maxDepth : Nat := 2048

instance : FileSystem IO where
  kind? := kind?
  below path := below path maxDepth
  read path := request do return (← IO.FS.readBinFile path.text).toList
  makeDirectory path := request (IO.FS.createDir path.text)
  write path text := request (IO.FS.writeFile path.text text)

/-- How many processors the machine lists. -/
def processors : IO Nat := do
  match ← request (IO.FS.lines "/proc/cpuinfo") with
  | .ok lines => return max 1 (lines.toList.countP (·.startsWith "processor"))
  | .error _ => return 1

end TestDouble.Machine

def main (arguments : List String) : IO UInt32 := do
  let reply ← TestDouble.CommandLine.run (← TestDouble.Machine.processors) arguments
  IO.print reply.out
  IO.eprint reply.errText
  return .ofNat reply.exitCode
