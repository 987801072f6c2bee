import TestDouble.Text.Quoted

/-!
# Faults

Why no test double was made. A fault is a cause and where it lies: the protocol, the member of the
protocol, and, where the text itself cannot be read, the line. Its wording is a function of these,
so that everything else can go by causes.
-/

namespace TestDouble

/-- How far a source text got before it was refused. -/
inductive Fault.Kind where
  /-- The text does not decompose into protocols and their members. -/
  | parsing
  /-- A method signature contradicts itself. -/
  | signature
  /-- Two generated members would have one name. -/
  | naming
  | other
  deriving DecidableEq, Repr

/-- The name of the kind in reports. -/
def Fault.Kind.name : Fault.Kind → String
  | parsing => "parse_error"
  | signature => "invalid_signature"
  | naming => "naming_collision"
  | other => "error"

/-- What went wrong. A `found` of `none` is the end of the text. -/
inductive Cause where
  | strayCharacter (found : Char)
  | openComment
  | openString
  | openMultilineString
  | unbalanced (opener : String)
  | mismatched (found wanted : String)
  | expected (wanted context : String) (found : Option String)
  | expectedName (context : String) (found : Option String)
  | expectedType (found : Option String)
  | openTuple
  | noParameterClause
  | openParameterClause
  | parameterClauseCut (found : Option String)
  | operatorRequirement (symbol : String)
  | methodBody
  | afterSignature (found : String)
  | noAccessors (property : String)
  | noGetter (property : String)
  | openBody (protocol : String)
  | inBody (found : Option String)
  | endOfText
  | noProtocol
  | severalProtocols (names : List String)
  | duplicateLabel (label : String)
  | duplicateName (name : String)
  | noFreeName (name : String)
  | memberTaken (name owner : String)
  /-- A cause from outside this library, known by its wording only. -/
  | stated (kind : Fault.Kind) (message : String)
  deriving DecidableEq, Repr

namespace Cause

def kind : Cause → Fault.Kind
  | duplicateLabel _ | duplicateName _ => .signature
  | noFreeName _ | memberTaken _ _ => .naming
  | stated kind _ => kind
  | _ => .parsing

/-- How a message names what stands at a place of the text. -/
def foundText (found : Option String) : String :=
  found.getD "end of input"

/-- The wording of the cause, without its place. -/
def message : Cause → String
  | strayCharacter found => s!"Unexpected character {Text.quoted found.toString}"
  | openComment => "Unterminated block comment"
  | openString => "Unterminated string literal"
  | openMultilineString => "Unterminated multi-line string literal"
  | unbalanced opener => s!"Unbalanced '{opener}'"
  | mismatched found wanted => s!"Mismatched '{found}', expected '{wanted}'"
  | expected wanted context found =>
    s!"Expected '{wanted}' {context}, found '{foundText found}'"
  | expectedName context found => s!"Expected a name {context}, found '{foundText found}'"
  | expectedType found => s!"Expected a type, found '{foundText found}'"
  | openTuple => "Unbalanced '(' in type"
  | noParameterClause => "Expected parameter clause"
  | openParameterClause => "Unbalanced '(' in parameter clause"
  | parameterClauseCut found =>
    s!"Expected ',' or ')' in parameter clause, found '{foundText found}'"
  | operatorRequirement symbol => s!"Operator requirement '{symbol}' is not supported"
  | methodBody => "Protocol method requirements cannot have a body"
  | afterSignature found => s!"Unexpected '{found}' after method signature"
  | noAccessors property =>
    s!"Property '{property}' must declare \x7b get \x7d or \x7b get set \x7d"
  | noGetter property => s!"Property '{property}' must declare a getter"
  | openBody protocol => s!"Unterminated body of protocol {protocol}"
  | inBody found => s!"Unexpected '{foundText found}' in protocol body"
  | endOfText => "Unexpected end of input"
  | noProtocol => "No protocol declaration found"
  | severalProtocols names =>
    let listed := String.intercalate ", " names
    s!"Expected one protocol declaration, found {names.length}: {listed}"
  | duplicateLabel label => s!"Duplicate parameter label '{label}'"
  | duplicateName name => s!"Duplicate parameter name '{name}'"
  | noFreeName name => s!"Could not derive unique field names for '{name}'"
  | memberTaken name owner =>
    s!"Generated member '{name}' is not unique (also used by '{owner}')"
  | stated _ message => message

end Cause

/-- Where a fault lies. -/
structure Place where
  protocol? : Option String := none
  member? : Option String := none
  deriving DecidableEq, Repr

/-- The place as `protocol.member`, without the parts that are unknown. -/
def Place.text (place : Place) : String :=
  String.intercalate "." ([place.protocol?, place.member?].filterMap id |>.filter (· ≠ ""))

structure Fault where
  cause : Cause
  place : Place := {}
  line? : Option Int := none
  deriving DecidableEq, Repr

namespace Fault

def kind (fault : Fault) : Kind :=
  fault.cause.kind

/-- The fault as one line: place, wording and line. -/
def text (fault : Fault) : String :=
  let place := fault.place.text
  let located := if place = "" then fault.cause.message else s!"{place}: {fault.cause.message}"
  match fault.line? with
  | some line => s!"{located} (line {line})"
  | none => located

/-- The fault laid at the door of a protocol, unless it already names one. -/
def within (fault : Fault) (protocol? : Option String) : Fault :=
  match fault.place.protocol? with
  | none | some "" => { fault with place.protocol? := protocol? }
  | some _ => fault

end Fault

end TestDouble
