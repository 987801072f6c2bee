import TestDouble.FieldName.Basic

/-!
# Test doubles

A test double of a protocol keeps, for every method, whether it was called and with what, and what
it has to return; for every property, what it holds and what was written to it. All of it follows
from the requirement and the name its fields are made of, so that is what a test double consists of.
-/

namespace TestDouble

/-! ## Kept arguments -/

/-- An element of the tuple that keeps the arguments of the latest call. -/
inductive Slot where
  | argument (name type : String) (optionality : Optionality)
  /-- A closure that does not outlive the call, for which the unit value is kept. -/
  | elided (name : String) (optionality : Optionality)
  /-- A unit value that makes a tuple of a single argument. -/
  | filler
  deriving DecidableEq, Repr

namespace Slot

def ofParameter (parameter : Parameter) : Slot :=
  if parameter.isStorable then
    argument parameter.name parameter.storage parameter.type.optionality
  else elided parameter.name parameter.type.optionality

/-- The slots for the parameters of a method. A tuple has no single element. -/
def ofParameters (parameters : List Parameter) : List Slot :=
  match parameters with
  | [parameter] => [ofParameter parameter, filler]
  | _ => parameters.map ofParameter

def name? : Slot → Option String
  | argument name _ _ | elided name _ => some name
  | filler => none

def type : Slot → String
  | argument _ type _ => type
  | elided _ _ | filler => "Void"

def optionality : Slot → Optionality
  | argument _ _ optionality | elided _ optionality => optionality
  | filler => .required

def isElided : Slot → Bool
  | elided _ _ => true
  | _ => false

/-- The slot as the tuple type declares it. -/
def declaration (slot : Slot) : String :=
  match slot.name? with
  | some name => s!"{name}: {slot.type}"
  | none => slot.type

end Slot

/-- Texts as the elements of a tuple. -/
def tupleText (elements : List String) : String :=
  "(" ++ String.intercalate ", " elements ++ ")"

/-! ## Stubs and closures -/

/-- A field that a test sets. -/
structure Stub where
  name : String
  type : String
  deriving DecidableEq, Repr

/-- The call of a closure that was passed as an argument. A closure that takes arguments is called
once a test has set them. -/
structure Callback where
  parameter : String
  arity : Nat
  /-- The field for the arguments. -/
  stub? : Option Stub
  isOptional : Bool
  throws : Bool
  isAwaited : Bool
  deriving DecidableEq, Repr

namespace Callback

/-- The type of the field for the arguments of a closure: one value or a tuple, and optional. -/
def stubType : List SwiftType → String
  | [single] => single.moreOptional
  | arguments => tupleText (arguments.map (·.text)) ++ "?"

/-- The call of a parameter's closure in a method. An asynchronous closure cannot be called from a
method that is not. -/
def ofParameter? (method : Method) (name : String) (parameter : Parameter) : Option Callback :=
  match parameter.type.signature? with
  | none => none
  | some signature =>
    if parameter.isVariadic || signature.isAsync && "async" ∉ method.effects then none
    else some {
      parameter := parameter.name
      arity := signature.arguments.length
      stub? :=
        if signature.arguments.isEmpty then none
        else some ⟨FieldName.stubbedClosure name parameter.name, stubType signature.arguments⟩
      isOptional := parameter.type.isOptional
      throws := signature.throws
      isAwaited := signature.isAsync }

end Callback

/-! ## Methods -/

/-- A method and the name that its fields are made of. -/
structure MethodDouble where
  method : Method
  name : String

namespace MethodDouble

variable (double : MethodDouble)

/-- The field that tells whether the method was called. -/
def flag : String :=
  FieldName.invoked double.name

/-- The field that keeps the arguments of the latest call. -/
def record : String :=
  FieldName.invokedParameters double.name

def slots : List Slot :=
  Slot.ofParameters double.method.parameters

/-- The type of the record, which is kept as an optional. -/
def recordType : String :=
  tupleText (double.slots.map (·.declaration))

/-- The closures to call, in the order of the parameters. -/
def callbacks : List Callback :=
  double.method.parameters.filterMap (Callback.ofParameter? double.method double.name)

def callbackStubs : List Stub :=
  double.callbacks.filterMap (·.stub?)

/-- The field for what the method returns. -/
def resultStub? : Option Stub :=
  double.method.result?.map fun type ↦ ⟨FieldName.stubbedResult double.name, type.stub⟩

/-- All fields, in the order of their declaration. -/
def fields : List String :=
  [double.flag, double.record] ++ double.callbackStubs.map (·.name)
    ++ (double.resultStub?.map (·.name)).toList

def callback? (parameter : String) : Option Callback :=
  double.callbacks.find? (·.parameter = parameter)

end MethodDouble

/-! ## Properties -/

namespace Property

variable (property : Property)

/-- The field for what the property holds. -/
def stubField : String :=
  FieldName.stubbed property.name

/-- The field for what was written to the property, if it can be written. -/
def writeField? : Option String :=
  if property.hasSetter then some (FieldName.invoked property.name) else none

/-- All fields, in the order of their declaration. -/
def fields : List String :=
  property.writeField?.toList ++ [property.stubField]

end Property

/-! ## Test doubles -/

structure Mock where
  name : String
  protocol : String
  properties : List Property := []
  methods : List MethodDouble := []
  genericParameters : List String := []
  superclass? : Option String := none
  isPublic : Bool := false

namespace Mock

variable (mock : Mock)

/-- All fields, in the order of their declaration. -/
def fields : List String :=
  mock.properties.flatMap (·.fields) ++ mock.methods.flatMap (·.fields)

def method? (name : String) : Option MethodDouble :=
  mock.methods.find? (·.name = name)

def property? (name : String) : Option Property :=
  mock.properties.find? (·.name = name)

/-- Every stored or computed member and the requirement that it belongs to. Methods may share their
names with each other and with properties. -/
def members : List (String × String) :=
  mock.properties.map (fun property ↦ (FieldName.bare property.name, property.name))
    ++ mock.properties.flatMap (fun property ↦ property.fields.map (·, property.name))
    ++ mock.methods.flatMap (fun double ↦ double.fields.map (·, double.method.name))

end Mock

end TestDouble
