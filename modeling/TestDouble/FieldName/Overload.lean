import TestDouble.FieldName.Basic
import TestDouble.Notice
import TestDouble.Text.Split
import TestDouble.Text.Word

/-!
# Overloads

Methods of one name need field names that tell them apart. Each gets a suffix made of its signature:
its parameter labels; if these do not separate all overloads, the types of the parameters too; then
the type of the result; and if all that fails, a number. Names are compared as they appear in field
names, with their first character in upper case.

The names so proposed may still collide with those of other members. They are settled one by one in
the order of declaration, and a name that is taken gets the first free number.
-/

namespace TestDouble.FieldName

/-! ## Suffixes -/

/-- A type text as one word: its words, each with its first character in upper case. -/
def typeWord (text : String) : String :=
  let words := (Text.splitWhere (!Text.isWord ·) text.toList).filter (· ≠ [])
  String.join (words.map fun word ↦ capitalized (String.ofList word))

def optionalityWord : Optionality → String
  | .required => ""
  | .optional => "Optional"
  | .implicitlyUnwrapped => "Unwrapped"

/-- What a parameter is called in suffixes: its label, or its name where it has none. -/
def parameterWord (parameter : Parameter) : String :=
  capitalized (if parameter.label = wildcard then parameter.name else parameter.label)

def typedParameterWord (parameter : Parameter) : String :=
  parameterWord parameter ++ typeWord parameter.type.base
    ++ optionalityWord parameter.type.optionality
    ++ (if parameter.isVariadic then "Variadic" else "")

def resultWord : Option SwiftType → String
  | some type => typeWord type.base ++ optionalityWord type.optionality
  | none => "Void"

/-- What tells the overloads of a method apart. -/
inductive Distinction where
  | labels
  | types
  | results
  deriving DecidableEq, Repr

namespace Distinction

/-- The distinctions, the preferred ones first. -/
def all : List Distinction :=
  [labels, types, results]

def suffix (method : Method) : Distinction → String
  | labels => String.join (method.parameters.map parameterWord)
  | types => String.join (method.parameters.map typedParameterWord)
  | results =>
    String.join (method.parameters.map typedParameterWord) ++ resultWord method.result?

/-- Whether the suffixes separate all methods. -/
def separates (methods : List Method) (distinction : Distinction) : Bool :=
  let names := methods.map fun method ↦ bare method.name ++ distinction.suffix method
  decide (names.map capitalized).Nodup

end Distinction

/-! ## Proposed names -/

/-- Methods are overloads of each other if they have equal keys. -/
def overloadKey (method : Method) : String :=
  capitalized method.name

def overloads (methods : List Method) (method : Method) : List Method :=
  methods.filter (overloadKey · = overloadKey method)

/-- The name proposed for a method, where `earlier` holds the methods declared before it. -/
def proposal (methods earlier : List Method) (method : Method) : String :=
  let group := overloads methods method
  let name := bare method.name
  if group.length = 1 then name
  else
    match Distinction.all.find? (·.separates group) with
    | some distinction => name ++ distinction.suffix method
    | none =>
      name ++ Distinction.labels.suffix method
        ++ toString ((overloads earlier method).length + 1)

/-- The names proposed for the methods, in their order. -/
def proposals (methods : List Method) : List String :=
  methods.zipIdx.map fun (method, i) ↦ proposal methods (methods.take i) method

/-! ## Settled names -/

/-- How many names are tried for a method. -/
def attemptLimit : Nat := 100

/-- The names tried for a method, in their order: the one proposed, then with the numbers from two
on. -/
def attempts (name : String) : List String :=
  name :: (List.range (attemptLimit - 1)).map fun i ↦ name ++ toString (i + 2)

/-- Whether none of the method's fields is taken. -/
def isFree (taken : List String) (name : String) : Bool :=
  (ofMethod name).all (· ∉ taken)

/-- The names settled on, up to the first method for which none is free. -/
def settle (taken : List String) : List String → List String
  | [] => []
  | name :: names =>
    match (attempts name).find? (isFree taken) with
    | some settled => settled :: settle (taken ++ ofMethod settled) names
    | none => []

/-- A name for each method, such that no two members have a field in common, nor one of the
reserved fields. -/
def assign (methods : List Method) (reserved : List String) : Except Fault (List String) :=
  let proposed := proposals methods
  let settled := settle reserved proposed
  match methods[settled.length]?, proposed[settled.length]? with
  | some method, some name =>
    .error { cause := .noFreeName name, place := { member? := some method.name } }
  | _, _ => .ok settled

/-! ## Notices -/

/-- What there is to tell about overloads, a group at a time. -/
def overloadNotices (methods : List Method) : List Notice :=
  methods.zipIdx.filterMap fun (method, i) ↦
    let count := (overloads methods method).length
    if count > 1 ∧ overloads (methods.take i) method = [] then
      some (.overloaded count (overloadKey method))
    else none

/-- What there is to tell about the names that were settled on. -/
def renameNotices (methods : List Method) (reserved : List String) : List Notice :=
  let proposed := proposals methods
  (methods.zip (proposed.zip (settle reserved proposed))).filterMap fun (method, name, settled) ↦
    if settled ≠ name then
      some (.renamed method.selector settled)
    else none

def notices (methods : List Method) (reserved : List String) : List Notice :=
  overloadNotices methods ++ renameNotices methods reserved

end TestDouble.FieldName
