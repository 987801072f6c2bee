import TestDouble.Reader
import TestDouble.SwiftType.Basic
import TestDouble.Token.Spacing

/-!
# Reading types

The grammar of types is recursive, and each rule below gets the reader for the types inside it as an
argument. `SwiftType.read` ties the knot: a type inside another is read after at least one token of
the outer one, so the number of tokens bounds the depth.
-/

namespace TestDouble

open Reader

/-! ## Pieces that are kept as text -/

/-- Whether the first token is the given symbol and stands on the line of the token before. -/
def adjoins (text : String) (tokens : List Token) : Bool :=
  tokens.head?.any fun token ↦ token.is text && !token.freshLine

/-- The text of a bracketed group that follows on the same line, or no text. -/
def adjoinedGroup (bracket : Bracket) : Reader String := do
  if adjoins bracket.opener (← ahead) then
    let inner ← group bracket
    return bracket.opener ++ Token.join inner ++ bracket.closer
  else return ""

/-- An attribute with its arguments. In front of a type a bracket usually belongs to the type, as in
`@escaping (Int) -> Void`. -/
def readAttribute (beforeType : Bool) : Reader String := do
  let name := ((← next?).map (·.text)).getD ""
  if beforeType && name ∉ ["@convention", "@differentiable"] then return name
  else return name ++ (← adjoinedGroup .round)

namespace SwiftType

/-! ## In front of a type -/

def ownershipSpecifiers : List String :=
  ["borrowing", "consuming", "sending", "__owned", "__shared"]

def startsType (token : Token) : Bool :=
  token.kind = .identifier || token.is "(" || token.is "["

/-- Whether a word stands first that belongs to the type after it. Where no type follows, the word
itself is the type. -/
def modifies (words : List String) : List Token → Bool
  | word :: next :: _ => word.text ∈ words && startsType next
  | _ => false

/-- What stands in front of a type. -/
inductive Specifier where
  | written (text : String)
  | inoutWord
  deriving DecidableEq, Repr

def Specifier.written? : Specifier → Option String
  | written text => some text
  | inoutWord => none

def specifier : Reader (Turn Specifier) := do
  let tokens ← ahead
  if tokens.head?.any (·.kind = .attribute) then
    return .more (.written (← readAttribute true))
  else if ← accept "inout" then return .more .inoutWord
  else if modifies ownershipSpecifiers tokens then
    return .more (.written (((← next?).map (·.text)).getD ""))
  else return .stop

/-! ## Simple types -/

/-- An element of a tuple type, or a parameter of a function type. -/
structure Element where
  /-- The names before the type, up to the space after the colon. -/
  label : String
  type : SwiftType
  isVariadic : Bool

def Element.text (element : Element) : String :=
  element.label ++ element.type.declared ++ (if element.isVariadic then "..." else "")

/-- What may follow a type directly. -/
inductive Suffix where
  | optional
  | implicitlyUnwrapped
  /-- A nested type, with the dot before it. -/
  | member (text : String)
  deriving DecidableEq, Repr

namespace Suffix

def text : Suffix → String
  | optional => "?"
  | implicitlyUnwrapped => "!"
  | member text => text

def optionality? : Suffix → Option Optionality
  | optional => some .optional
  | implicitlyUnwrapped => some .implicitlyUnwrapped
  | member _ => none

end Suffix

/-- A type without its suffixes, with the elements if it stands in parentheses. -/
structure Primary where
  text : String
  elements? : Option (List Element) := none

/-- A type with its suffixes. -/
structure Component extends Primary where
  suffixes : List Suffix

def Component.fullText (component : Component) : String :=
  component.text ++ String.join (component.suffixes.map (·.text))

/-- The fault of a place where no type begins. -/
def missing : Reader α := do
  fail (.expectedType ((← ahead).head?.map (·.text)))

section Rules

variable (type : Reader SwiftType)

def genericArguments : Reader String := do
  if adjoins "<" (← ahead) then
    skip
    let arguments ← separated type
    let _ ← expect ">" "to close generic arguments"
    return "<" ++ String.intercalate ", " (arguments.map declared) ++ ">"
  else return ""

/-- The names before a tuple element's type, one or two of them. -/
def elementLabel : Reader String := do
  match ← ahead with
  | first :: second :: rest =>
    if first.kind = .identifier ∧ second.is ":" then
      skip; skip
      return first.text ++ ": "
    else if first.kind = .identifier ∧ second.kind = .identifier ∧ stands [":"] rest then
      skip; skip; skip
      return first.text ++ " " ++ second.text ++ ": "
    else return ""
  | _ => return ""

def element : Reader Element := do
  let label ← elementLabel
  let type ← type
  return { label, type, isVariadic := ← accept "..." }

def tuple : Reader Primary := do
  let opener ← expect "(" "to open tuple type"
  let elements ← repeated do
    let tokens ← ahead
    if stands [")"] tokens then return .stop
    if tokens.isEmpty then fail .openTuple opener.line
    let element ← element type
    if ← accept "," then return .more element else return .last element
  let _ ← expect ")" "to close tuple type"
  return { text := "(" ++ String.intercalate ", " (elements.map (·.text)) ++ ")"
           elements? := some elements }

/-- An array or dictionary type. -/
def collection : Reader Primary := do
  skip
  let first ← type
  if ← accept ":" then
    let value ← type
    let _ ← expect "]" "to close dictionary type"
    return { text := s!"[{first.declared}: {value.declared}]" }
  else
    let _ ← expect "]" "to close array type"
    return { text := s!"[{first.declared}]" }

def primary : Reader Primary := do
  match (← ahead).head? with
  | some token =>
    if token.is "(" then tuple type
    else if token.is "[" then collection type
    else if token.kind = .identifier then
      skip
      return { text := token.text ++ (← genericArguments type) }
    else missing
  | none => missing

/-- A suffix stands on the line of the type. -/
def suffix : Reader (Turn Suffix) := do
  match ← ahead with
  | [] => return .stop
  | token :: rest =>
    if token.freshLine then return .stop
    else if token.kind = .operator ∧ token.text = "?" then
      skip
      return .more .optional
    else if token.kind = .operator ∧ token.text = "!" then
      skip
      return .more .implicitlyUnwrapped
    else if token.is "." then
      match rest with
      | name :: _ =>
        if name.kind = .identifier then
          skip; skip
          return .more (.member ("." ++ name.text ++ (← genericArguments type)))
        else return .stop
      | [] => return .stop
    else return .stop

def component : Reader Component := do
  let primary ← primary type
  return { primary with suffixes := ← repeated (suffix type) }

/-! ## Function types -/

/-- Whether an arrow follows, with nothing but effects before it. `depth` counts the open
parentheses of an effect's argument, and `afterEffect` tells whether one may open here. -/
def arrowFrom (afterEffect : Bool) : Nat → List Token → Bool
  | _, [] => false
  | 0, token :: tokens =>
    if afterEffect && token.is "(" then arrowFrom false 1 tokens
    else if token.text = "async" ∨ token.text = "throws" then arrowFrom true 0 tokens
    else token.is "->"
  | depth + 1, token :: tokens =>
    if token.text = "(" then arrowFrom false (depth + 2) tokens
    else if token.text = ")" then arrowFrom false depth tokens
    else arrowFrom false (depth + 1) tokens

def arrowAhead (tokens : List Token) : Bool :=
  arrowFrom false 0 tokens

def functionEffect : Reader (Turn String) := do
  if ← accept "async" then return .more "async"
  else if ← accept "throws" then return .more ("throws" ++ (← adjoinedGroup .round))
  else return .stop

/-- The argument types of a function type. A single `Void` stands for no argument. -/
def argumentTypes (elements : List Element) : List SwiftType :=
  match elements.map (·.type) with
  | [single] => if single.isVoid then [] else [single]
  | types => types

/-- A type without what stands in front of it, and with its marker taken off. -/
structure Bare where
  base : String
  optionality : Optionality := .required
  needsParens : Bool := false
  signature? : Option (Signature SwiftType) := none

/-- A function type whose parameters have been read. -/
def function (lead : String) (parameters : Component) : Reader Bare := do
  let effects ← repeated functionEffect
  let _ ← expect "->" "in function type"
  let result ← type
  let effectsText := String.join (effects.map (" " ++ ·))
  return {
    base := s!"{lead}{parameters.fullText}{effectsText} -> {result.declared}"
    needsParens := true
    signature? := some ⟨argumentTypes (parameters.elements?.getD []), effects⟩ }

/-! ## Types -/

/-- The signature of a function type in parentheses, which a single marker may follow. -/
def parenthesizedSignature? (component : Component) : Option (Signature SwiftType) :=
  match component.elements?, component.suffixes with
  | some [⟨"", type, _⟩], [] | some [⟨"", type, _⟩], [.optional]
  | some [⟨"", type, _⟩], [.implicitlyUnwrapped] =>
    if type.isOptional then none else type.signature?
  | _, _ => none

/-- A component that is a type of its own. Its last suffix may mark it as optional. -/
def Component.bare (component : Component) : Bare :=
  let signature? := parenthesizedSignature? component
  match component.suffixes.getLast?.bind Suffix.optionality? with
  | some optionality =>
    { base := { component with suffixes := component.suffixes.dropLast }.fullText
      optionality, signature? }
  | none => { base := component.fullText, signature? }

/-- The word `some` or `any` in front of a type, and the space after it. -/
def lead : Reader String := do
  if modifies ["some", "any"] (← ahead) then
    return ((← next?).map (·.text)).getD "" ++ " "
  else return ""

def bare : Reader Bare := do
  let lead ← lead
  let startsRound ← sees "("
  let first ← component type
  if startsRound && first.suffixes.isEmpty && arrowAhead (← ahead) then function type lead first
  else if ← sees "&" then
    let others ← repeated do
      if ← accept "&" then return .more (← component type) else return .stop
    let parts := (first :: others).map (·.fullText)
    return { base := lead ++ String.intercalate " & " parts, needsParens := true }
  else if lead ≠ "" then return { base := lead ++ first.fullText, needsParens := true }
  else return first.bare

def annotated : Reader SwiftType := do
  let specifiers ← repeated specifier
  let bare ← bare type
  let type : SwiftType := {
    base := bare.base
    optionality := bare.optionality
    attributes := specifiers.filterMap Specifier.written?
    isInout := specifiers.contains .inoutWord
    needsParens := bare.needsParens
    signature? := bare.signature? }
  tell (.readType type)
  return type

end Rules

/-- Reads a type inside at most `depth` others. -/
def readWithin : Nat → Reader SwiftType
  | 0 => missing
  | depth + 1 => annotated (readWithin depth)

/-- Reads a type. Where no token is left, there is none. -/
def read : Reader SwiftType :=
  fun scope tokens ↦ readWithin tokens.length scope tokens

end SwiftType

end TestDouble
