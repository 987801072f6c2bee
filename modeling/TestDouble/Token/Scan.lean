import TestDouble.Fault
import TestDouble.Text.Blank
import TestDouble.Text.Word
import TestDouble.Token.Basic

/-!
# Scanning

A source text is a sequence of pieces: tokens, and the gaps between them, which are blanks and
comments. `firstPiece` tells what a text begins with and how many more characters belong to it, and
`scan` cuts a text at these places. Since a piece is measured and then cut off, no character is
lost or read twice; the line of a token and whether a line break stands before it follow from the
line feeds in the pieces before it.

Only a line feed breaks a line. The other line separators are blanks.
-/

namespace TestDouble.Token

open Text

/-! ## How far a piece goes

Each of these counts the characters of its argument that still belong to a piece already begun. -/

/-- A block comment inside `depth` others, up to the end of the outermost. Comments nest. -/
def commentExtent : Nat → List Char → Option Nat
  | depth, '/' :: '*' :: cs => (commentExtent (depth + 1) cs).map (· + 2)
  | depth, '*' :: '/' :: cs =>
    if depth = 0 then some 2 else (commentExtent (depth - 1) cs).map (· + 2)
  | depth, _ :: cs => (commentExtent depth cs).map (· + 1)
  | _, [] => none

/-- A string literal on one line, closing quote included. A backslash takes any character with it,
a line feed too. -/
def stringExtent : List Char → Option Nat
  | '\\' :: _ :: cs => (stringExtent cs).map (· + 2)
  | '\x22' :: _ => some 1
  | '\n' :: _ => none
  | _ :: cs => (stringExtent cs).map (· + 1)
  | [] => none

/-- A string literal over several lines, up to and including three quotes. -/
def multilineExtent : List Char → Option Nat
  | '\x22' :: '\x22' :: '\x22' :: _ => some 3
  | _ :: cs => (multilineExtent cs).map (· + 1)
  | [] => none

/-- How many characters in front satisfy `p`. -/
def countWhile (p : Char → Bool) (cs : List Char) : Nat :=
  (cs.takeWhile p).length

/-- A name between backticks, closing backtick included. It is not empty and stays on its line. -/
def escapedNameExtent (cs : List Char) : Option Nat :=
  let n := countWhile (fun c ↦ c ≠ '\x60' ∧ c ≠ '\n') cs
  if n ≠ 0 ∧ cs[n]? = some '\x60' then some (n + 1) else none

def isNameRest (c : Char) : Bool :=
  isWord c || c = '$'

def isNumberRest (c : Char) : Bool :=
  isDigit c || c = '_'

/-- The fraction of a number: a dot counts only before a digit. -/
def fractionExtent : List Char → Nat
  | '.' :: d :: cs => if isDigit d then 2 + countWhile isNumberRest cs else 0
  | _ => 0

/-- The exponent of a number: a letter counts only before a digit, which may have a sign. -/
def exponentExtent : List Char → Nat
  | e :: sign :: cs =>
    if e = 'e' ∨ e = 'E' then
      if sign = '+' ∨ sign = '-' then
        let n := countWhile isDigit cs
        if n = 0 then 0 else 2 + n
      else
        let n := countWhile isDigit (sign :: cs)
        if n = 0 then 0 else 1 + n
    else 0
  | _ => 0

/-- What follows the first digit of a number. -/
def numberExtent (cs : List Char) : Nat :=
  let digits := countWhile isNumberRest cs
  let fraction := fractionExtent (cs.drop digits)
  digits + fraction + exponentExtent (cs.drop (digits + fraction))

/-! ## Symbols -/

/-- Symbols of several characters. They are taken before those of one. -/
def compoundExtent : Char → List Char → Option Nat
  | '-', '>' :: _ => some 1
  | '.', '.' :: '.' :: _ => some 2
  | '=', '=' :: _ => some 1
  | '&', '&' :: _ => some 1
  | '|', '|' :: _ => some 1
  | _, _ => none

def punctuationMarks : List Char :=
  ['(', ')', '\x7b', '\x7d', '[', ']', '<', '>', ',', ':', ';', '.', '=', '&']

def operatorMarks : List Char :=
  ['?', '!', '#', '+', '-', '*', '/', '%', '|', '^', '~']

/-! ## Pieces -/

/-- A piece of source text. -/
inductive Piece where
  | gap
  | token (kind : Kind)
  deriving DecidableEq, Repr

/-- A name of either spelling, which is a keyword if it is one of the reserved words. -/
def namePiece (text : List Char) : Piece :=
  .token (if String.ofList text ∈ keywords then .keyword else .identifier)

/-- The token that begins with `c` and goes on in `cs`, where neither a blank, a comment nor a
string begins. -/
def firstToken (c : Char) (cs : List Char) : Except Cause (Piece × Nat) :=
  if isNameStart c ∨ c = '$' then
    let n := countWhile isNameRest cs
    .ok (namePiece (c :: cs.take n), n)
  else if isDigit c then .ok (.token .number, numberExtent cs)
  else if let some n := compoundExtent c cs then .ok (.token .operator, n)
  else if c ∈ punctuationMarks then .ok (.token .punctuation, 0)
  else if c ∈ operatorMarks then .ok (.token .operator, 0)
  else
    match c, cs with
    | '@', d :: ds =>
      if isNameStart d then .ok (.token .attribute, 1 + countWhile isWord ds)
      else .error (.strayCharacter c)
    | '\x60', _ =>
      match escapedNameExtent cs with
      | some n => .ok (.token .identifier, n)
      | none => .error (.strayCharacter c)
    | _, _ => .error (.strayCharacter c)

/-- What the text `c :: cs` begins with, and how many characters of `cs` belong to it. -/
def firstPiece (c : Char) (cs : List Char) : Except Cause (Piece × Nat) :=
  if isBlank c then .ok (.gap, 0)
  else
    match c, cs with
    | '/', '/' :: _ => .ok (.gap, countWhile (· ≠ '\n') cs)
    | '/', '*' :: inside =>
      match commentExtent 0 inside with
      | some n => .ok (.gap, 1 + n)
      | none => .error .openComment
    | '\x22', '\x22' :: '\x22' :: inside =>
      match multilineExtent inside with
      | some n => .ok (.token .string, 2 + n)
      | none => .error .openMultilineString
    | '\x22', _ =>
      match stringExtent cs with
      | some n => .ok (.token .string, n)
      | none => .error .openString
    | _, _ => firstToken c cs

/-! ## Cutting a text into tokens -/

/-- The tokens of a text that begins on `line`, where `fresh` tells whether a line break stands
between its start and the token before. -/
def scanFrom (line : Nat) (fresh : Bool) : List Char → Except Fault Tokens
  | [] => .ok ⟨[], ⟨line, fresh⟩⟩
  | c :: cs =>
    match firstPiece c cs with
    | .error cause => .error { cause, line? := some line }
    | .ok (piece, n) =>
      let text := c :: cs.take n
      let nextLine := line + text.count '\n'
      match piece with
      | .gap => scanFrom nextLine (fresh || text.contains '\n') (cs.drop n)
      | .token kind =>
        (scanFrom nextLine false (cs.drop n)).map fun tokens ↦
          { tokens with items := ⟨kind, String.ofList text, line, fresh⟩ :: tokens.items }
termination_by cs => cs.length
decreasing_by all_goals simp only [List.length_drop, List.length_cons]; omega

end Token

/-- The tokens of a text. -/
def Tokens.scan (text : String) : Except Fault Tokens :=
  Token.scanFrom 1 false text.toList

end TestDouble
