import TestDouble.CommandLine.Generate
import TestDouble.CommandLine.Help

/-!
# Running

From the arguments of the program to its reply.
-/

namespace TestDouble.CommandLine

/-- The reply to a request on a machine with so many processors. Only the command looks at files. -/
def Request.run {m : Type → Type} [Monad m] [FileSystem m] (processors : Nat) :
    Request → m Reply
  | nothing => return { exitCode := 2, err := Topic.program.help }
  | help topic => return { exitCode := 0, out := unlines topic.help }
  | misuse topic complaint =>
    return { exitCode := 2, err := [s!"{topic.title}: error: {complaint.message}"] }
  | generate settings => CommandLine.generate processors settings

def run {m : Type → Type} [Monad m] [FileSystem m] (processors : Nat) (arguments : List String) :
    m Reply :=
  (Request.ofArguments arguments).run processors

end TestDouble.CommandLine
