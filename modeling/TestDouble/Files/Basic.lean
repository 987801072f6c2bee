import TestDouble.Files.Path
import TestDouble.Text.Quoted

/-!
# Files

What the program asks of a file system, whichever it is, and the little that it does with one beyond
single requests. The requests are a class over the monad they are made in, so that the program can
be run on the files of the machine and reasoned about on files that are a value.
-/

namespace TestDouble

/-- Why a file system refuses a request. -/
inductive FileSystem.Refusal where
  | missing
  | present
  | notDirectory
  | isDirectory
  | longName
  | other (number : Nat) (reason : String)
  deriving DecidableEq, Repr

namespace FileSystem.Refusal

def number : Refusal → Nat
  | missing => 2
  | present => 17
  | notDirectory => 20
  | isDirectory => 21
  | longName => 36
  | other number _ => number

def reason : Refusal → String
  | missing => "No such file or directory"
  | present => "File exists"
  | notDirectory => "Not a directory"
  | isDirectory => "Is a directory"
  | longName => "File name too long"
  | other _ reason => reason

end FileSystem.Refusal

/-- A request that was refused. -/
structure FileFault where
  refusal : FileSystem.Refusal
  path : Path
  deriving DecidableEq, Repr

def FileFault.message (fault : FileFault) : String :=
  s!"[Errno {fault.refusal.number}] {fault.refusal.reason}: {Text.quoted fault.path.text}"

inductive FileKind where
  | file
  | directory
  deriving DecidableEq, Repr

class FileSystem (m : Type → Type) where
  /-- What there is at a path. That there is nothing is no refusal. -/
  kind? (path : Path) : m (Except FileSystem.Refusal (Option FileKind))
  /-- Everything below a directory, at any depth, as the names that lead to it. -/
  below (path : Path) : m (List (List String))
  read (path : Path) : m (Except FileSystem.Refusal (List UInt8))
  /-- Makes a directory in one that exists. -/
  makeDirectory (path : Path) : m (Except FileSystem.Refusal Unit)
  /-- Puts a text into a file, in place of what is there. -/
  write (path : Path) (text : String) : m (Except FileSystem.Refusal Unit)

namespace FileSystem

variable {m : Type → Type} [Monad m] [FileSystem m]

/-- Makes a directory unless there is one. -/
def ensureLast (path : Path) : m (Except FileFault Unit) := do
  match ← makeDirectory path with
  | .ok () => return .ok ()
  | .error .missing => return .error ⟨.missing, path⟩
  | .error refusal =>
    match ← kind? path with
    | .ok (some .directory) => return .ok ()
    | .ok _ => return .error ⟨refusal, path⟩
    | .error refusal => return .error ⟨refusal, path⟩

/-- Makes a directory, and those on the way to it, unless there are such. -/
def ensureDirectory (path : Path) : m (Except FileFault Unit) := do
  match ← ensureLast path with
  | .error ⟨.missing, missing⟩ =>
    if path.parts.isEmpty then return .error ⟨.missing, missing⟩
    else
      match ← ensureDirectory path.parent with
      | .ok () => ensureLast path
      | .error fault => return .error fault
  | result => return result
termination_by path.parts.length
decreasing_by
  simp only [Path.parent, List.length_dropLast]
  simp only [List.isEmpty_iff] at *
  have := List.length_pos_iff.mpr ‹_›
  omega

end FileSystem

end TestDouble
