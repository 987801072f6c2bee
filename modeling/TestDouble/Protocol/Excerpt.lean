import TestDouble.Fault
import TestDouble.Notice
import TestDouble.Token.Scan

/-!
# Locating protocols

A text may declare many protocols among other things. Before any of them is read, each is cut out
with the attributes and access levels before it and its body up to the matching brace, so that a
malformed member spoils only the protocol it belongs to.

What precedes a declaration is found by walking back from its keyword, what follows by counting
braces. Both are given as a number of tokens to take.
-/

namespace TestDouble

/-- The words for access levels. -/
def accessLevels : List String :=
  ["public", "open", "package", "internal", "fileprivate", "private"]

/-- The tokens of one protocol declaration, and where the text around it ends. -/
structure Excerpt where
  name : String
  line : Nat
  items : List Token
  finish : Finish
  deriving DecidableEq, Repr

namespace Excerpt

/-! ## Before the keyword -/

/-- Walks back out of `depth` parentheses: how many tokens there are up to the outermost opener. -/
def openerExtent : Nat → List Token → Option Nat
  | _, [] => none
  | depth, token :: earlier =>
    if token.is ")" then (openerExtent (depth + 1) earlier).map (· + 1)
    else if token.is "(" then
      if depth ≤ 1 then some 1 else (openerExtent (depth - 1) earlier).map (· + 1)
    else (openerExtent depth earlier).map (· + 1)

/-- How many of the tokens before a declaration, nearest first, belong to it. A group in
parentheses does only as the argument of an attribute. -/
def leadExtent : List Token → Nat
  | [] => 0
  | token :: earlier =>
    if token.kind = .attribute ∨ token.text ∈ accessLevels then leadExtent earlier + 1
    else if token.is ")" then
      match openerExtent 1 earlier with
      | some n =>
        if earlier[n]?.any (·.kind = .attribute) then leadExtent (earlier.drop (n + 1)) + n + 2
        else 0
      | none => 0
    else 0
termination_by earlier => earlier.length
decreasing_by all_goals simp only [List.length_drop, List.length_cons]; omega

/-! ## After the keyword -/

/-- Whether a token ends the header of a declaration. -/
def endsHeader (token : Token) : Bool :=
  token.is "\x7b" || token.is "\x7d" || token.is ";" || token.is "protocol"

/-- How many tokens there are up to the brace that closes the outermost of `depth` open ones. -/
def braceExtent : Nat → List Token → Nat
  | _, [] => 0
  | depth, token :: tokens =>
    if token.is "\x7b" then braceExtent (depth + 1) tokens + 1
    else if token.is "\x7d" then
      if depth ≤ 1 then 1 else braceExtent (depth - 1) tokens + 1
    else braceExtent depth tokens + 1

/-- How many tokens after the keyword belong to the declaration. -/
def declarationExtent (tokens : List Token) : Nat :=
  let header := (tokens.takeWhile (!endsHeader ·)).length
  let body := tokens.drop header
  if body.head?.any (·.is "\x7b") then header + braceExtent 0 body else header

/-! ## The whole text -/

/-- The name of the protocol that a token declares, given the tokens after it. -/
def declaredName? (token : Token) (tokens : List Token) : Option String :=
  if token.is "protocol" then (tokens.head?.filter (·.kind = .identifier)).map (·.text) else none

/-- The protocols declared in the tokens, where `before` holds those before them, nearest first. -/
def locateFrom (finish : Finish) (before : List Token) : List Token → List Excerpt
  | [] => []
  | token :: tokens =>
    match declaredName? token tokens with
    | some name =>
      let n := declarationExtent tokens
      let lead := (before.take (leadExtent before)).reverse
      let declaration := token :: tokens.take n
      { name, line := token.line, items := lead ++ declaration, finish }
        :: locateFrom finish (declaration.reverse ++ before) (tokens.drop n)
    | none => locateFrom finish (token :: before) tokens
termination_by tokens => tokens.length
decreasing_by all_goals simp only [List.length_drop, List.length_cons]; omega

def locate (tokens : Tokens) : List Excerpt :=
  locateFrom tokens.finish [] tokens.items

/-- The protocols declared in a text. -/
def ofText (text : String) : Except Fault (List Excerpt) :=
  (Tokens.scan text).map locate

/-! ## Notices -/

def notice (excerpt : Excerpt) : Notice :=
  .located excerpt.name excerpt.line

end Excerpt

end TestDouble
