import TestDouble.Protocol.Basic
import TestDouble.Protocol.Excerpt
import TestDouble.SwiftType.Read
import TestDouble.Text.Blank
import TestDouble.Text.Split

/-!
# Reading protocols

Members have no terminator of their own. A member ends where the next one can begin, which takes a
line break and a word that begins members, or where a semicolon or the closing brace stands.
-/

namespace TestDouble

open Reader

/-! ## Words in front of declarations -/

/-- Modifiers that a test double can do without. -/
def idleModifiers : List String :=
  ["mutating", "nonmutating", "optional", "required", "final", "nonisolated", "override", "dynamic",
   "convenience"]

def staticModifiers : List String :=
  ["static", "class"]

/-- Members that are skipped. -/
def skippedMembers : List String :=
  ["init", "subscript", "typealias"]

def memberWords : List String :=
  ["func", "var", "let", "associatedtype"] ++ skippedMembers

/-- Whether a member ends before the tokens. -/
def endsMember : List Token → Bool
  | [] => true
  | token :: _ =>
    token.is "\x7d" || token.is ";" ||
      token.freshLine && (token.kind = .attribute || token.text ∈ memberWords ||
        token.text ∈ accessLevels || token.text ∈ idleModifiers || token.text ∈ staticModifiers)

/-- An attribute or modifier. -/
inductive Lead where
  | attributed (text : String)
  | modifier (word : String)
  deriving DecidableEq, Repr

namespace Lead

def attributed? : Lead → Option String
  | attributed text => some text
  | modifier _ => none

def modifier? : Lead → Option String
  | attributed _ => none
  | modifier word => some word

/-- The word `class` is a modifier before a member, but not before a name or another protocol. -/
def turn : Reader (Turn Lead) := do
  match ← ahead with
  | [] => return .stop
  | token :: rest =>
    if token.kind = .attribute then return .more (.attributed (← readAttribute false))
    else if token.text ∈ accessLevels then
      skip
      if stands ["("] rest && stands ["set"] rest.tail then
        let _ ← group .round
      return .more (.modifier token.text)
    else if token.text ∈ idleModifiers ∨
        (token.text ∈ staticModifiers ∧ ¬ stands ["protocol"] rest) then
      if token.is "class" && rest.head?.any (·.kind = .identifier) then return .stop
      skip
      return .more (.modifier token.text)
    else return .stop

def read : Reader (List Lead) :=
  repeated turn

end Lead

/-! ## Parameters -/

namespace Parameter

/-- Reads the parameter at a position, counted from one. A parameter without a name is named for its
position, so that its argument can be kept. -/
def read (position : Nat) : Reader Parameter := do
  let first ← expectName "for parameter"
  let second? := (← ahead).head?.filter Token.isName
  if second?.isSome then skip
  let written := (second?.getD first).text
  let label? := second?.map fun _ ↦ first.text
  let named := written ≠ wildcard
  let name := if named then written else s!"param{position}"
  let label? := if named then label? else label? <|> some wildcard
  let _ ← expect ":" s!"after parameter '{name}'"
  let type ← SwiftType.read
  let isVariadic ← accept "..."
  if ← accept "=" then
    let _ ← collectUntil (stands [",", ")"])
  return { name, type, label?, isVariadic }

/-- Reads a parameter clause with its parentheses. -/
def readClause : Reader (List Parameter) := do
  let opener ← expect "(" "to open parameter clause"
  let parameters ← numbered fun number ↦ do
    let tokens ← ahead
    if stands [")"] tokens then return .stop
    if tokens.isEmpty then fail .openParameterClause opener.line
    let parameter ← Parameter.read (number + 1)
    if ← accept "," then return .more parameter else return .last parameter
  let tokens ← ahead
  unless stands [")"] tokens do
    fail (.parameterClauseCut (tokens.head?.map (·.text)))
  skip
  return parameters

end Parameter

/-! ## Members -/

namespace Method

def effect : Reader (Turn String) := do
  match ← ahead with
  | token :: _ =>
    if ["async", "throws", "rethrows"].any token.is then
      skip
      return .more (token.text ++ (← adjoinedGroup .round))
    else return .stop
  | [] => return .stop

/-- Reads a method whose keyword and name have been taken. -/
def readAfterName (name : String) (line : Nat) (isStatic : Bool) : Reader Method := do
  let genericClause ← adjoinedGroup .angle
  unless ← sees "(" do fail .noParameterClause
  let parameters ← Parameter.readClause
  let effects ← repeated effect
  let result? ← if ← accept "->" then some <$> SwiftType.read else pure none
  let whereClause ← if ← accept "where" then Token.join <$> collectUntil endsMember else pure ""
  if ← sees "\x7b" then fail .methodBody
  let tokens ← ahead
  unless endsMember tokens do
    fail (.afterSignature ((tokens.head?.map (·.text)).getD ""))
  let draft : Draft :=
    { name, parameters, result?, genericClause, whereClause, effects, isStatic, line? := some line }
  match draft.check with
  | .error cause => refuse cause
  | .ok method =>
    tell (.readMethod method.selector)
    return method

def read (isStatic : Bool) : Reader Method := do
  let keyword ← expect "func" "to start method"
  match (← ahead).head? with
  | some name =>
    unless name.isName do fail (.operatorRequirement name.text)
    skip
    inMember name.text (readAfterName name.text keyword.line isStatic)
  | none => fail (.operatorRequirement "")

end Method

namespace Property

/-- Reads a property whose keyword and name have been taken. -/
def readAfterName (name : String) (line : Nat) (isStatic : Bool) : Reader Property := do
  let _ ← expect ":" s!"after property '{name}'"
  let type ← SwiftType.read
  unless ← sees "\x7b" do fail (.noAccessors name)
  let accessors := (← group .curly).map (·.text)
  unless "get" ∈ accessors do fail (.noGetter name)
  return { name, type, hasSetter := "set" ∈ accessors, isStatic, line? := some line }

def read (isStatic : Bool) : Reader Property := do
  let keyword ← expect "var" "to start property"
  let name ← expectName "for property"
  inMember name.text (readAfterName name.text keyword.line isStatic)

end Property

namespace AssociatedType

def read : Reader AssociatedType := do
  let _ ← expect "associatedtype" "to start associated type"
  let name ← expectName "for associated type"
  let constraints ← if ← accept ":" then separated SwiftType.read else pure []
  if ← accept "=" then
    let _ ← SwiftType.read
  if ← accept "where" then
    let _ ← collectUntil endsMember
  return ⟨name.text, String.intercalate " & " (constraints.map SwiftType.declared)⟩

end AssociatedType

/-! ## Protocols -/

/-- What a protocol body is made of. -/
inductive Member where
  | method (method : Method)
  | property (property : Property)
  | associatedType (type : AssociatedType)
  /-- A semicolon, or a member that is skipped. -/
  | nothing

namespace Member

def method? : Member → Option Method
  | method m => some m
  | _ => none

def property? : Member → Option Property
  | property p => some p
  | _ => none

def associatedType? : Member → Option AssociatedType
  | associatedType t => some t
  | _ => none

/-- Reads a member of the named protocol. -/
def read (protocol : String) : Reader Member := do
  let leads ← Lead.read
  let isStatic := (leads.filterMap Lead.modifier?).any (· ∈ staticModifiers)
  match (← ahead).head? with
  | none => fail (.inBody none)
  | some token =>
    if token.is "func" then return .method (← Method.read isStatic)
    else if token.is "var" then return .property (← Property.read isStatic)
    else if token.is "associatedtype" then return .associatedType (← AssociatedType.read)
    else if token.text ∈ skippedMembers then
      tell (.skippedMember token.text protocol token.line)
      skip
      let _ ← collectUntil endsMember
      return .nothing
    else fail (.inBody (some token.text))

end Member

namespace Protocol

/-- The names in one entry of an inheritance clause. -/
def readEntry : Reader (List String) := do
  if ← accept "class" then return ["AnyObject"]
  else
    let type ← SwiftType.read
    let parts := Text.splitWhere (· = '&') type.base.toList
    return parts.map fun part ↦ String.ofList (Text.trimBlank part)

def readInheritance : Reader (List String) := do
  if ← accept ":" then return (← separated readEntry).flatten else return []

/-- Reads the members of the named protocol, which begins on `line`, up to the closing brace. -/
def readBody (name : String) (line : Nat) : Reader (List Member) :=
  repeated do
    let tokens ← ahead
    if stands ["\x7d"] tokens then return .stop
    if tokens.isEmpty then fail (.openBody name) line
    if ← accept ";" then return .more .nothing
    return .more (← Member.read name)

/-- Reads a protocol that begins on `line`. -/
def readDeclaration (line : Nat) : Reader Protocol := do
  let leads ← Lead.read
  let access := ((leads.filterMap Lead.modifier?).find? (· ∈ accessLevels)).getD ""
  let _ ← expect "protocol" "to start protocol declaration"
  let name := (← expectName "for protocol").text
  -- Primary associated types are declared again in the body.
  let _ ← adjoinedGroup .angle
  let inherited ← readInheritance
  if ← accept "where" then
    let _ ← collectUntil (stands ["\x7b"])
  let _ ← expect "\x7b" s!"to open body of protocol {name}"
  let members ← readBody name line
  let _ ← expect "\x7d" s!"to close body of protocol {name}"
  let protocol : Protocol := {
    name, inherited, access
    methods := members.filterMap Member.method?
    properties := members.filterMap Member.property?
    associatedTypes := members.filterMap Member.associatedType?
    line? := some line
    attributes := leads.filterMap Lead.attributed? }
  tell (.readProtocol name protocol.methods.length protocol.properties.length)
  return protocol

end Protocol

/-- Reads the declaration in an excerpt. -/
def Excerpt.read (excerpt : Excerpt) : Reading Protocol :=
  let scope : Scope := { finish := excerpt.finish, place := { protocol? := some excerpt.name } }
  Protocol.readDeclaration excerpt.line scope excerpt.items

namespace Protocol

/-- All protocols declared in a text. -/
def allOfText (text : String) : Except Fault (List Protocol) := do
  (← Excerpt.ofText text).mapM fun excerpt ↦ excerpt.read.result

/-- The protocol of a text that declares exactly one. -/
def ofText (text : String) : Except Fault Protocol := do
  match ← Excerpt.ofText text with
  | [] => .error { cause := .noProtocol }
  | [excerpt] => excerpt.read.result
  | excerpts => .error { cause := .severalProtocols (excerpts.map (·.name)) }

end Protocol

end TestDouble
