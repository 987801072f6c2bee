import TestDouble.CommandLine.Entry
import TestDouble.CommandLine.Word
import TestDouble.Text.Integer

/-!
# Requests

What a command line asks for. The program's own switches come before the name of the command, and
everything behind that name belongs to the command; a first argument that does not begin with a
dash and is no command stands for the command with that argument.

The paths of the command are one run of operands. Operands elsewhere, and switches that do not
exist, are left over, and a command line with leftovers is refused, though only when there is
nothing worse. Several switches of one letter can share a dash, and nothing of such an argument is
left over: all its letters have to be switches, up to one that takes the remaining text as value.
-/

namespace TestDouble.CommandLine

/-- Where test doubles go. -/
inductive Destination where
  | files
  | stdout
  | json
  deriving DecidableEq, Repr

/-- What the command is to do. -/
structure Settings where
  paths : List String := []
  outputDirectory : Entry String := .value "."
  destination : Destination := .files
  isPublic? : Option Bool := none
  indent : Entry Int := .value 4
  workers? : Option (Entry Int) := none
  /-- The protocols asked for. Without a choice all are, and a blank entry is the choice of none. -/
  only : List (Entry String) := []
  skip : List (Entry String) := []
  verbosity : Nat := 0
  deriving DecidableEq, Repr

inductive Request where
  /-- There is no command. -/
  | nothing
  | help (topic : Topic)
  | generate (settings : Settings)
  | misuse (topic : Topic) (complaint : Complaint)
  deriving DecidableEq, Repr

/-! ## Switches and their values -/

/-- A switch with the value it takes. -/
structure Choice where
  switch : Switch
  entry : Entry String := .blank
  deriving DecidableEq, Repr

/-- The value of a switch that takes a number. -/
def Choice.number (choice : Choice) : Except Complaint (Entry Int) :=
  match choice.entry with
  | .blank => .ok .blank
  | .value text =>
    match Text.integer? text with
    | some n => .ok (.value n)
    | none => .error (.noNumber choice.switch text)

/-- What the words of one argument, and perhaps the value behind it, come to. -/
structure Gathering where
  choices : List Choice
  /-- The words behind. -/
  rest : List Word
  deriving DecidableEq, Repr

/-- A switch with its value, which is attached to it or the next operand. -/
def Mention.withValue (mention : Mention) (rest : List Word) : Except Complaint Gathering :=
  match mention.attachment?, rest with
  | some text, _ | none, .operand text :: rest =>
    .ok { choices := [⟨mention.switch, .ofText text⟩], rest }
  | none, _ => .error (.noValue mention.switch)

/-- Gathers a switch that takes no value and the switches whose letters stand behind it. One that
takes a value ends the letters: what is left of the argument is its value. A letter that is no
switch begins a value that the switch before it has no use for. -/
def gatherLetters (names : List (String × Switch)) (rest : List Word) (switch : Switch) :
    List Char → Except Complaint Gathering
  | [] => .ok { choices := [{ switch }], rest }
  | c :: cs =>
    match names.lookup (.ofList ['-', c]) with
    | none => .error (.strayValue switch (.ofList (c :: cs)))
    | some next =>
      let attachment? := Option.guard (· ≠ "") (String.ofList cs)
      let later :=
        if next.takesValue then
          Mention.withValue { switch := next, isShort := true, attachment? } rest
        else gatherLetters names rest next cs
      match later with
      | .error complaint => .error complaint
      | .ok later => .ok { later with choices := { switch } :: later.choices }

/-- Gathers everything that one argument says, before any of it is done. -/
def Mention.gather (names : List (String × Switch)) (mention : Mention) (rest : List Word) :
    Except Complaint Gathering :=
  if mention.switch.takesValue then mention.withValue rest
  else
    match mention.attachment? with
    | none => .ok { choices := [{ switch := mention.switch }], rest }
    | some attachment =>
      if !mention.isShort || attachment.isEmpty then .error (.strayValue mention.switch attachment)
      else gatherLetters names rest mention.switch attachment.toList

/-! Gathering never puts words back. -/

private theorem Mention.length_withValue_le {mention : Mention} {rest : List Word}
    {gathering : Gathering}
    (h : mention.withValue rest = .ok gathering) : gathering.rest.length ≤ rest.length := by
  unfold withValue at h
  split at h
  · cases h
    exact Nat.le_refl _
  · cases h
    exact Nat.le_succ _
  · cases h

theorem length_gatherLetters_le {names : List (String × Switch)} {rest : List Word}
    {switch : Switch} {cs : List Char} {gathering : Gathering}
    (h : gatherLetters names rest switch cs = .ok gathering) :
    gathering.rest.length ≤ rest.length := by
  induction cs generalizing switch gathering with
  | nil =>
    cases h
    exact Nat.le_refl _
  | cons c cs ih =>
    rw [gatherLetters] at h
    split at h
    · cases h
    · dsimp only at h
      split at h
      · cases h
      · rename_i later hlater
        cases h
        change later.rest.length ≤ rest.length
        split at hlater
        · exact Mention.length_withValue_le hlater
        · exact ih hlater

theorem Mention.length_gather_le {names : List (String × Switch)} {mention : Mention}
    {rest : List Word} {gathering : Gathering} (h : mention.gather names rest = .ok gathering) :
    gathering.rest.length ≤ rest.length := by
  unfold gather at h
  split at h
  · exact length_withValue_le h
  · split at h
    · cases h
      exact Nat.le_refl _
    · split at h
      · cases h
      · exact length_gatherLetters_le h

/-! ## The command -/

/-- How much of the command has been understood. -/
structure Progress where
  settings : Settings := {}
  /-- The switches so far. -/
  switches : List Switch := []
  leftover : List String := []
  deriving DecidableEq, Repr

namespace Progress

/-- What a switch does to the settings. -/
def setting (settings : Settings) (choice : Choice) : Except Complaint Settings :=
  match choice.switch with
  | .help => .ok settings
  | .outputDirectory => .ok { settings with outputDirectory := choice.entry }
  | .toStdout => .ok { settings with destination := .stdout }
  | .toJson => .ok { settings with destination := .json }
  | .publicMembers => .ok { settings with isPublic? := some true }
  | .internalMembers => .ok { settings with isPublic? := some false }
  | .indent => do return { settings with indent := ← choice.number }
  | .workers => do return { settings with workers? := some (← choice.number) }
  | .only => .ok { settings with only := settings.only ++ [choice.entry] }
  | .skip => .ok { settings with skip := settings.skip ++ [choice.entry] }
  | .verbose => .ok { settings with verbosity := settings.verbosity + 1 }

/-- Takes a switch into account. Asking for help ends the matter. -/
def choose (progress : Progress) (choice : Choice) : Except Request Progress :=
  match setting progress.settings choice with
  | .error complaint => .error (.misuse .generate complaint)
  | .ok settings =>
    match choice.switch.rival?.filter (progress.switches.contains ·) with
    | some rival => .error (.misuse .generate (.contradiction choice.switch rival))
    | none =>
      if choice.switch = .help then .error (.help .generate)
      else .ok { progress with settings, switches := choice.switch :: progress.switches }

/-- Takes a run of operands for the paths, unless they are known or there is no operand in it. -/
def takeRun (progress : Progress) (run : List Word) : Progress :=
  if progress.settings.paths.isEmpty && run.any Word.isOperand then
    { progress with settings.paths := (run.filter Word.isOperand).map Word.text }
  else { progress with leftover := progress.leftover ++ run.map Word.text }

/-- Takes the words of the command into account, from left to right. -/
def take (progress : Progress) : List Word → Except Request Progress
  | [] => .ok progress
  | .unknown text :: rest => take { progress with leftover := progress.leftover ++ [text] } rest
  | .mention _ mention :: rest =>
    match _h : mention.gather Topic.generate.names rest with
    | .error complaint => .error (.misuse .generate complaint)
    | .ok gathering => do
      take (← gathering.choices.foldlM choose progress) gathering.rest
  | word :: rest =>
    take (progress.takeRun (word :: rest.takeWhile Word.inRun)) (rest.dropWhile Word.inRun)
termination_by words => words.length
decreasing_by
  · simp
  · have := Mention.length_gather_le _h
    simp only [List.length_cons]
    omega
  · have := (List.dropWhile_suffix (l := rest) Word.inRun).length_le
    simp only [List.length_cons]
    omega

end Progress

/-- What the arguments behind the name of the command ask for, when `leftover` stand before it. -/
def Request.ofCommand (leftover arguments : List String) : Request :=
  match Word.ofArguments .generate arguments with
  | .error complaint => .misuse .generate complaint
  | .ok words =>
    match Progress.take {} words with
    | .error request => request
    | .ok progress =>
      if progress.settings.paths.isEmpty then .misuse .generate .noPaths
      else
        match leftover ++ progress.leftover with
        | [] => .generate progress.settings
        | texts => .misuse .program (.leftover texts)

/-! ## The program -/

/-- What the words of a whole command line ask for. -/
def Request.ofWords (leftover : List String) : List Word → Request
  | [] => if leftover.isEmpty then .nothing else .misuse .program (.leftover leftover)
  | .unknown text :: rest => ofWords (leftover ++ [text]) rest
  | .mention _ mention :: rest =>
    match mention.gather Topic.program.names rest with
    | .error complaint => .misuse .program complaint
    | .ok _ => .help .program
  | [.separator] => .misuse .program (.leftover (leftover ++ ["--"]))
  | word :: rest =>
    if word = .operand "generate" then .ofCommand leftover (rest.map Word.text)
    else .misuse .program (.noCommand word.text)

/-- What the arguments of the program ask for. -/
def Request.ofArguments (arguments : List String) : Request :=
  let impliesCommand :=
    match arguments with
    | [] => false
    | argument :: _ => !argument.startsWith "-" && argument != "generate"
  let arguments := if impliesCommand then "generate" :: arguments else arguments
  match Word.ofArguments .program arguments with
  | .error complaint => .misuse .program complaint
  | .ok words => ofWords [] words

end TestDouble.CommandLine
