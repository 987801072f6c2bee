import TestDouble.CommandLine.Switch
import TestDouble.Text.Quoted
import TestDouble.Text.Word

/-!
# Words of a command line

What an argument is, seen alone: a switch, perhaps with text attached to it, or an operand.
Everything after `--` is an operand. A long name may be cut short as long as only one switch is
meant, and what begins with a dash and has the name of no switch is an operand where it is a
negative number or has a space in it.
-/

namespace TestDouble.CommandLine

/-- A switch with what is attached to it. -/
structure Mention where
  switch : Switch
  /-- Whether it goes by a name of one letter, behind which there may be more of them. -/
  isShort : Bool
  /-- The text behind the switch in its argument, as in `--indent=2` and `-j3`. An equals sign right
  behind the name is not part of it. -/
  attachment? : Option String := none
  deriving DecidableEq, Repr

inductive Word where
  | operand (text : String)
  /-- The first `--`. -/
  | separator
  | mention (text : String) (mention : Mention)
  /-- Nothing but a switch could be meant, but there is none of this name. -/
  | unknown (text : String)
  deriving DecidableEq, Repr

namespace Word

/-- The word as it was typed. -/
def text : Word → String
  | operand text | mention text _ | unknown text => text
  | separator => "--"

def isOperand : Word → Bool
  | operand _ => true
  | _ => false

/-- Whether the word can be part of a run of operands. -/
def inRun : Word → Bool
  | operand _ | separator => true
  | mention .. | unknown _ => false

end Word

/-- What is wrong with a command line. -/
inductive Complaint where
  | ambiguous (text : String) (names : List String)
  | noValue (switch : Switch)
  | noNumber (switch : Switch) (text : String)
  | strayValue (switch : Switch) (text : String)
  | contradiction (switch rival : Switch)
  | noPaths
  | noCommand (text : String)
  | leftover (texts : List String)
  deriving DecidableEq, Repr

def Complaint.message : Complaint → String
  | ambiguous text names =>
    let listed := String.intercalate ", " names
    s!"ambiguous option: {text} could match {listed}"
  | noValue switch => s!"argument {switch.label}: expected one argument"
  | noNumber switch text =>
    s!"argument {switch.label}: invalid int value: {Text.quoted text}"
  | strayValue switch text =>
    s!"argument {switch.label}: ignored explicit argument {Text.quoted text}"
  | contradiction switch rival =>
    s!"argument {switch.label}: not allowed with argument {rival.label}"
  | noPaths => "the following arguments are required: paths"
  | noCommand text =>
    s!"argument command: invalid choice: {Text.quoted text} (choose from 'generate')"
  | leftover texts =>
    let listed := String.intercalate " " texts
    s!"unrecognized arguments: {listed}"

namespace Word

/-- Whether the text is a negative number, whole or with decimals. One line end may follow it. -/
def isNegativeNumber (cs : List Char) : Bool :=
  match cs with
  | '-' :: cs =>
    let rest := cs.dropWhile Text.isDigit
    match rest with
    | '.' :: decimals =>
      match decimals.span Text.isDigit with
      | (_ :: _, []) | (_ :: _, ['\n']) => true
      | _ => false
    | [] | ['\n'] => rest.length < cs.length
    | _ => false
  | _ => false

/-- The part before the first equals sign and, if there is one, the part behind it. -/
def cutAtEquals (cs : List Char) : String × Option String :=
  match cs.span (· ≠ '=') with
  | (name, _ :: value) => (.ofList name, some (.ofList value))
  | (name, []) => (.ofList name, none)

/-- The word that an argument is, given the names that switches have. -/
def classify (names : List (String × Switch)) (text : String) : Except Complaint Word :=
  match text.toList with
  | '-' :: c :: cs =>
    let isShort := c != '-'
    let (name, attachment?) := cutAtEquals ('-' :: c :: cs)
    match names.lookup text, names.lookup name with
    | some switch, _ => .ok (.mention text { switch, isShort })
    | none, some switch => .ok (.mention text { switch, isShort, attachment? })
    | none, none =>
      let candidates :=
        if isShort then names.filter (·.1 = .ofList ['-', c])
        else names.filter fun (long, _) ↦ name.toList.isPrefixOf long.toList
      let attachment? := if isShort then some (.ofList cs) else attachment?
      match candidates with
      | [(_, switch)] => .ok (.mention text { switch, isShort, attachment? })
      | [] =>
        if isNegativeNumber ('-' :: c :: cs) || (c :: cs).contains ' ' then .ok (.operand text)
        else .ok (.unknown text)
      | _ => .error (.ambiguous text (candidates.map (·.1)))
  | _ => .ok (.operand text)

/-- The words that the arguments are. -/
def ofArguments (topic : Topic) : List String → Except Complaint (List Word)
  | [] => .ok []
  | "--" :: arguments => .ok (.separator :: arguments.map .operand)
  | argument :: arguments => do
    return (← classify topic.names argument) :: (← ofArguments topic arguments)

end Word

end TestDouble.CommandLine
