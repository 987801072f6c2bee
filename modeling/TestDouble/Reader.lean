import TestDouble.Fault
import TestDouble.Notice
import TestDouble.Token.Bracket

/-!
# Readers

A reader takes tokens from the front of a list. It gives a value or a fault, and in both cases the
tokens it left and the notices it has to tell. Tokens are only ever taken, never put back: whatever
has to be decided beforehand is decided by looking at the tokens ahead.
-/

namespace TestDouble

/-- What stays the same while tokens are read: where they end, and what they belong to. -/
structure Scope where
  finish : Finish
  place : Place := {}
  deriving DecidableEq, Repr

structure Reading (α : Type) where
  result : Except Fault α
  rest : List Token
  notices : List Notice := []

def Reader (α : Type) : Type :=
  Scope → List Token → Reading α

namespace Reader

/-! ## Composition -/

instance : Monad Reader where
  pure a := fun _ tokens ↦ ⟨.ok a, tokens, []⟩
  bind read next := fun scope tokens ↦
    let first := read scope tokens
    match first.result with
    | .error fault => ⟨.error fault, first.rest, first.notices⟩
    | .ok a =>
      let second := next a scope first.rest
      { second with notices := first.notices ++ second.notices }

/-- Reads on behalf of a member, which faults then name. -/
def inMember (member : String) (read : Reader α) : Reader α :=
  fun scope tokens ↦ read { scope with place.member? := some member } tokens

def tell (notice : Notice) : Reader Unit :=
  fun _ tokens ↦ ⟨.ok (), tokens, [notice]⟩

/-- Refuses what was read, for a cause that lies on no particular line. -/
def refuse (cause : Cause) : Reader α :=
  fun scope tokens ↦ ⟨.error { cause, place := scope.place }, tokens, []⟩

/-- The line where reading stands. -/
def lineAt (scope : Scope) : List Token → Nat
  | [] => scope.finish.line
  | token :: _ => token.line

/-- Refuses the tokens, on the given line or else on the line where reading stands. -/
def fail (cause : Cause) (line? : Option Nat := none) : Reader α :=
  fun scope tokens ↦
    let line := line?.getD (lineAt scope tokens)
    ⟨.error { cause, place := scope.place, line? := some line }, tokens, []⟩

/-! ## Looking ahead -/

/-- All tokens that are left. -/
def ahead : Reader (List Token) :=
  fun _ tokens ↦ ⟨.ok tokens, tokens, []⟩

/-- Whether the first token is one of the given words and symbols. -/
def stands (texts : List String) (tokens : List Token) : Bool :=
  tokens.head?.any fun token ↦ texts.any token.is

def sees (text : String) : Reader Bool :=
  return stands [text] (← ahead)

def atEnd : Reader Bool :=
  return (← ahead).isEmpty

/-! ## Taking tokens -/

/-- The next token. At the end there is none, and the reader stays there. -/
def next? : Reader (Option Token) :=
  fun _ tokens ↦ ⟨.ok tokens.head?, tokens.tail, []⟩

def skip : Reader Unit := do
  let _ ← next?

/-- Takes the next token if it is the given word or symbol. -/
def accept? (text : String) : Reader (Option Token) := do
  if ← sees text then next? else return none

def accept (text : String) : Reader Bool :=
  return (← accept? text).isSome

/-- Takes the next token, which has to be the given word or symbol. -/
def expect (text context : String) : Reader Token :=
  fun scope tokens ↦
    match tokens with
    | token :: rest =>
      if token.is text then ⟨.ok token, rest, []⟩
      else fail (.expected text context (some token.text)) none scope tokens
    | [] => fail (.expected text context none) none scope tokens

/-- Takes the next token, which has to be a name. -/
def expectName (context : String) : Reader Token :=
  fun scope tokens ↦
    match tokens with
    | token :: rest =>
      if token.isName then ⟨.ok token, rest, []⟩
      else fail (.expectedName context (some token.text)) none scope tokens
    | [] => fail (.expectedName context none) none scope tokens

/-- The tokens of a bracketed group without its brackets. The next token is the opener. -/
def group (bracket : Bracket) : Reader (List Token) :=
  fun scope tokens ↦
    let line := lineAt scope tokens
    match bracket.close tokens.tail with
    | .closed inner rest => ⟨.ok inner, rest, []⟩
    | .mismatched found innermost rest =>
      fail (.mismatched found.text innermost.closer) (some found.line) scope rest
    | .endless => fail (.unbalanced bracket.opener) (some line) scope []

/-! ## Repetition -/

/-- What one turn of a repetition gives. -/
inductive Turn (α : Type) where
  | stop
  | last (item : α)
  | more (item : α)

/-- Takes turns, which know their number, until one says that it is the last. A turn that took no
token is the last in any case. -/
def repeatFrom (turn : Nat → Reader (Turn α)) (number : Nat) (scope : Scope)
    (tokens : List Token) : Reading (List α) :=
  let first := turn number scope tokens
  match first.result with
  | .error fault => { first with result := .error fault }
  | .ok .stop => { first with result := .ok [] }
  | .ok (.last item) => { first with result := .ok [item] }
  | .ok (.more item) =>
    if first.rest.length < tokens.length then
      let others := repeatFrom turn (number + 1) scope first.rest
      ⟨others.result.map (item :: ·), others.rest, first.notices ++ others.notices⟩
    else { first with result := .ok [item] }
termination_by tokens.length

/-- Takes turns, numbered from zero, and collects their items. -/
def numbered (turn : Nat → Reader (Turn α)) : Reader (List α) :=
  repeatFrom turn 0

def repeated (turn : Reader (Turn α)) : Reader (List α) :=
  numbered fun _ ↦ turn

/-- One item or more, with a comma between two of them. -/
def separated (item : Reader α) : Reader (List α) := do
  let first ← item
  let others ← repeated do
    if ← accept "," then return .more (← item) else return .stop
  return first :: others

/-- Everything up to the place where `stop` holds of the tokens left. Bracketed groups are taken
whole, and given with their brackets. -/
def collectUntil (stop : List Token → Bool) : Reader (List Token) := do
  let parts ← repeated do
    let tokens ← ahead
    if stop tokens then return .stop
    match tokens with
    | [] => fail .endOfText
    | token :: _ =>
      match [Bracket.round, .square, .curly].find? fun bracket ↦ token.is bracket.opener with
      | some bracket =>
        let inner ← group bracket
        let closer : Token := { kind := .punctuation, text := bracket.closer, line := token.line }
        return .more (token :: inner ++ [closer])
      | none =>
        skip
        return .more [token]
  return parts.flatten

end Reader

end TestDouble
