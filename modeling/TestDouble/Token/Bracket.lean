import TestDouble.Token.Basic

/-!
# Bracketed groups

Where a bracketed group of tokens ends. Round, square and curly brackets nest in every group. Angle
brackets are brackets only in a group that begins with one, since elsewhere they are operators.
Strings and numbers are never brackets.
-/

namespace TestDouble

inductive Bracket where
  | round
  | square
  | curly
  | angle
  deriving DecidableEq, Repr

namespace Bracket

def opener : Bracket → String
  | round => "("
  | square => "["
  | curly => "\x7b"
  | angle => "<"

def closer : Bracket → String
  | round => ")"
  | square => "]"
  | curly => "\x7d"
  | angle => ">"

def all : List Bracket :=
  [round, square, curly, angle]

def ofOpener? (text : String) : Option Bracket :=
  all.find? (·.opener = text)

def ofCloser? (text : String) : Option Bracket :=
  all.find? (·.closer = text)

/-- Whether the bracket nests in a group that `outermost` opens. -/
def nestsIn (bracket outermost : Bracket) : Bool :=
  bracket ≠ angle || outermost = angle

/-- What a token does to the nesting of a group. -/
inductive Role where
  | neutral
  | opens (bracket : Bracket)
  | closes (bracket : Bracket)
  deriving DecidableEq, Repr

def role (outermost : Bracket) (token : Token) : Role :=
  if token.kind = .string ∨ token.kind = .number then .neutral
  else
    match (ofOpener? token.text).filter (·.nestsIn outermost),
      (ofCloser? token.text).filter (·.nestsIn outermost) with
    | some bracket, _ => .opens bracket
    | none, some bracket => .closes bracket
    | none, none => .neutral

/-- How a group ends. -/
inductive Closing where
  /-- The tokens before the closer, and those after it. -/
  | closed (inner rest : List Token)
  /-- A closer for another bracket than the innermost open one, and the tokens after it. -/
  | mismatched (found : Token) (innermost : Bracket) (rest : List Token)
  | endless
  deriving DecidableEq, Repr

/-- The group with one more token in front. -/
def Closing.cons (token : Token) : Closing → Closing
  | closed inner rest => closed (token :: inner) rest
  | mismatched found innermost rest => mismatched found innermost rest
  | endless => endless

/-- Follows a group whose open brackets are `innermost` and, around it, `enclosing`. -/
def closeFrom (outermost innermost : Bracket) : List Bracket → List Token → Closing
  | _, [] => .endless
  | enclosing, token :: tokens =>
    match role outermost token with
    | .neutral => (closeFrom outermost innermost enclosing tokens).cons token
    | .opens bracket => (closeFrom outermost bracket (innermost :: enclosing) tokens).cons token
    | .closes bracket =>
      if bracket ≠ innermost then .mismatched token innermost tokens
      else
        match enclosing with
        | [] => .closed [] tokens
        | next :: outer => (closeFrom outermost next outer tokens).cons token

/-- Follows the group that begins right after the opener. -/
def close (bracket : Bracket) (tokens : List Token) : Closing :=
  closeFrom bracket bracket [] tokens

end Bracket

end TestDouble
