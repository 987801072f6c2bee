import TestDouble.Mock.Basic
import TestDouble.Recording.Value

/-!
# Recordings

A test double at work. A recording holds the fields of a test double and changes as the double's
methods are called and its stubs are set, in the way of the Swift class: a call raises the flag of
its method, replaces the kept arguments, calls the closures that were passed, and returns what was
stubbed. A call that fails halfway has done what it did before.

Calling a closure does not change a field. So the calls of one method are a list that follows from
the fields and from how the closures take them, cut short by the first failure.
-/

namespace TestDouble

/-! ## Refusals -/

/-- Why an operation is refused. -/
inductive Refusal where
  | noField (name : String)
  | noMethod (name : String)
  | noProperty (name : String)
  | noClosure (parameter : String)
  | noMember (name : String)
  /-- A stub is read that no test has set. -/
  | unset (field : String)
  | noResult (method : String)
  | noArguments (closure method : String)
  | readOnly (property : String)
  | tooMany (selector : String) (expected found : Nat)
  | missing (selector parameter : String)
  | unexpected (selector : String) (keywords : List String)
  | reservedKeyword (keyword : String)
  | notCallable (typeName : String)
  | notSpreadable (callee typeName : String)
  /-- A closure was called and failed, with a complaint of its own. -/
  | raised (complaint : String)
  deriving DecidableEq, Repr

def Refusal.message : Refusal → String
  | noField name | noMethod name | noProperty name | noClosure name | noMember name => name
  | unset field => s!"{field} was read before it was assigned"
  | noResult method => s!"{method} returns Void and cannot be stubbed"
  | noArguments closure method => s!"Closure '{closure}' of {method} takes no arguments"
  | readOnly property => s!"Property '{property}' is read-only"
  | tooMany selector expected found => s!"{selector} takes {expected} arguments, got {found}"
  | missing selector parameter => s!"{selector} missing argument '{parameter}'"
  | unexpected selector keywords =>
    let listed := String.intercalate ", " keywords
    s!"{selector} got unexpected arguments: {listed}"
  | reservedKeyword keyword =>
    s!"MockRecorder.invoke() got multiple values for argument '{keyword}'"
  | notCallable typeName => s!"'{typeName}' object is not callable"
  | notSpreadable callee typeName =>
    s!"{callee} argument after * must be an iterable, not {typeName}"
  | raised complaint => complaint

/-! ## Fields -/

/-- What a field holds. Only stubs can be unset. -/
inductive Cell where
  | unset
  | holds (value : Value)
  deriving Repr, Inhabited

/-- The fields of a test double at work, in the order of their declaration. -/
structure Recording where
  cells : List (String × Cell)
  deriving Repr

namespace Recording

/-- The fields of a property when nothing has happened. -/
def initialProperty (property : Property) : List (String × Cell) :=
  (property.writeField?.map (·, .holds .null)).toList ++ [(property.stubField, .unset)]

/-- The fields of a method when nothing has happened. -/
def initialMethod (double : MethodDouble) : List (String × Cell) :=
  [(double.flag, .holds (.bool false)), (double.record, .holds .null)]
    ++ double.callbackStubs.map (fun stub ↦ (stub.name, .holds .null))
    ++ (double.resultStub?.map fun stub ↦ (stub.name, .unset)).toList

/-- A test double to which nothing has happened. -/
def initial (mock : Mock) : Recording where
  cells := mock.properties.flatMap initialProperty ++ mock.methods.flatMap initialMethod

def cell? (recording : Recording) (field : String) : Option Cell :=
  recording.cells.lookup field

/-- The recording with another value in a field. -/
def set (recording : Recording) (field : String) (value : Value) : Recording where
  cells := recording.cells.map fun (name, cell) ↦
    (name, if name = field then .holds value else cell)

/-- What a field holds, if it is set. -/
def read (recording : Recording) (field : String) : Except Refusal Value :=
  match recording.cell? field with
  | none => .error (.noField field)
  | some .unset => .error (.unset field)
  | some (.holds value) => .ok value

/-! ## Arguments -/

/-- Keywords that do not reach a parameter, since a call names itself with them. -/
def reservedKeywords : List String :=
  ["self", "unique_name"]

/-- The keyword under which an argument for the parameter was passed. Labels come before names. -/
def keyword? (parameter : Parameter) (keywords : List (String × Value)) : Option String :=
  [parameter.label, parameter.name].find? fun key ↦ (keywords.lookup key).isSome

/-- The arguments for parameters that are passed by keyword, and the keywords left over. -/
def bindKeywords (selector : String) (keywords : List (String × Value)) :
    List Parameter → Except Refusal (List Value × List (String × Value))
  | [] => .ok ([], keywords)
  | parameter :: parameters =>
    match keyword? parameter keywords with
    | none => .error (.missing selector parameter.name)
    | some key => do
      let (values, rest) ←
        bindKeywords selector (keywords.filter (·.1 ≠ key)) parameters
      return ((keywords.lookup key).getD .null :: values, rest)

/-- The arguments in the order of the parameters. The first ones are passed by position, the others
by label or name. -/
def bind (method : Method) (positional : List Value) (keywords : List (String × Value)) :
    Except Refusal (List Value) := do
  let count := method.parameters.length
  if positional.length > count then
    throw (.tooMany method.selector count positional.length)
  let (values, rest) ←
    bindKeywords method.selector keywords (method.parameters.drop positional.length)
  match rest with
  | [] => return positional ++ values
  | _ => throw (.unexpected method.selector ((rest.map (·.1)).mergeSort (· ≤ ·)))

/-- What is kept of the arguments. -/
def kept : List Slot → List Value → List Value
  | .argument _ _ _ :: slots, value :: values => value :: kept slots values
  | .elided _ _ :: slots, _ :: values => .unit :: kept slots values
  | .filler :: slots, values => .unit :: kept slots values
  | _, _ => []

/-! ## Closures -/

/-- The call of a closure with its arguments. -/
structure Event where
  closure : String
  arguments : List Value
  deriving Repr

/-- How closures take their calls: with what complaint the latest call of an operation fails, if it
does, given all its calls in their order. -/
abbrev Reaction :=
  List Event → Option String

/-- Every call returns. -/
def Reaction.returning : Reaction :=
  fun _ ↦ none

/-- Calls a value, which has to be a closure. -/
def apply (callee : Value) (arguments : List Value) : Except Refusal Event :=
  match callee with
  | .closure name => .ok ⟨name, arguments⟩
  | _ => .error (.notCallable callee.typeName)

/-- The call of a closure that was passed as an argument, if it takes place. -/
def eventOf (recording : Recording) (callback : Callback) (closure : Value) :
    Except Refusal (Option Event) :=
  if closure.isNull && callback.isOptional then .ok none
  else
    match callback.stub? with
    | none => some <$> apply closure []
    | some stub =>
      match recording.cell? stub.name with
      | some (.holds value) =>
        if value.isNull then .ok none
        else if callback.arity = 1 then some <$> apply closure [value]
        else
          match value.parts? with
          | some arguments => some <$> apply closure arguments
          | none => .error (.notSpreadable closure.calleeName value.typeName)
      | _ => .ok none

/-- The calls of closures after some earlier ones, up to the first that is refused or fails. -/
def eventsOf (recording : Recording) (react : Reaction) (earlier : List Event) :
    List (Callback × Value) → List Event × Option Refusal
  | [] => ([], none)
  | (callback, closure) :: calls =>
    match eventOf recording callback closure with
    | .error refusal => ([], some refusal)
    | .ok none => eventsOf recording react earlier calls
    | .ok (some event) =>
      match react (earlier ++ [event]) with
      | some complaint => ([event], some (.raised complaint))
      | none =>
        let (events, refusal?) := eventsOf recording react (earlier ++ [event]) calls
        (event :: events, refusal?)

/-! ## Operations -/

/-- What a test does with a test double. -/
inductive Operation where
  | invoke (method : String) (positional : List Value) (keywords : List (String × Value))
  | stub (method : String) (value : Value)
  | stubClosure (method parameter : String) (value : Value)
  | invoked (method : String)
  | parameters (method : String)
  | stubProperty (name : String) (value : Value)
  | getProperty (name : String)
  | setProperty (name : String) (value : Value)
  | read (field : String)
  /-- Reads a field as a member of the test double. -/
  | member (field : String)
  deriving Repr

/-- What an operation gives, what it leaves, and the closures it called. -/
structure Performance where
  result : Except Refusal Value
  recording : Recording
  events : List Event := []

/-- An operation that reads only. -/
def observe (recording : Recording) (result : Except Refusal Value) : Performance :=
  { result, recording }

/-- An operation that sets a field. -/
def assign (recording : Recording) (field : Except Refusal String) (value : Value) : Performance :=
  match field with
  | .ok field => { result := .ok .null, recording := recording.set field value }
  | .error refusal => { result := .error refusal, recording }

/-- What was looked for, or a refusal where it was not found. -/
def orRefuse {α : Type} (found? : Option α) (refusal : Refusal) : Except Refusal α :=
  found?.elim (.error refusal) .ok

def findMethod (mock : Mock) (name : String) : Except Refusal MethodDouble :=
  orRefuse (mock.method? name) (.noMethod name)

def findProperty (mock : Mock) (name : String) : Except Refusal Property :=
  orRefuse (mock.property? name) (.noProperty name)

/-- The field for the result of a method. -/
def resultField (mock : Mock) (method : String) : Except Refusal String := do
  let double ← findMethod mock method
  orRefuse (double.resultStub?.map (·.name)) (.noResult method)

/-- The field for the arguments of a closure. -/
def closureField (mock : Mock) (method parameter : String) : Except Refusal String := do
  let double ← findMethod mock method
  let callback ← orRefuse (double.callback? parameter) (.noClosure parameter)
  orRefuse (callback.stub?.map (·.name)) (.noArguments parameter method)

/-- The field for what a property holds. -/
def stubField (mock : Mock) (name : String) : Except Refusal String := do
  let property ← findProperty mock name
  return property.stubField

/-- The field for what is written to a property. -/
def writeField (mock : Mock) (name : String) : Except Refusal String := do
  let property ← findProperty mock name
  orRefuse property.writeField? (.readOnly name)

/-- Calls a method with bound arguments. -/
def call (recording : Recording) (double : MethodDouble) (arguments : List Value)
    (react : Reaction := .returning) : Performance :=
  let record := Value.tuple (kept double.slots arguments)
  let recording := (recording.set double.flag (.bool true)).set double.record record
  let bound := (double.method.parameters.map (·.name)).zip arguments
  let calls := double.callbacks.map fun callback ↦
    (callback, (bound.lookup callback.parameter).getD .null)
  let (events, refusal?) := recording.eventsOf react [] calls
  let result :=
    match refusal?, double.resultStub? with
    | some refusal, _ => .error refusal
    | none, some stub => recording.read stub.name
    | none, none => .ok .null
  { result, recording, events }

/-- The method that a call is for, and its arguments in the order of the parameters. Of several
reserved keywords the first one is named. -/
def target (mock : Mock) (method : String) (positional : List Value)
    (keywords : List (String × Value)) : Except Refusal (MethodDouble × List Value) := do
  if let some keyword := (keywords.map (·.1)).find? (reservedKeywords.contains ·) then
    throw (.reservedKeyword keyword)
  let double ← findMethod mock method
  return (double, ← bind double.method positional keywords)

/-- Calls a method. Arguments that do not fit change nothing. -/
def invoke (mock : Mock) (recording : Recording) (method : String) (positional : List Value)
    (keywords : List (String × Value)) (react : Reaction := .returning) : Performance :=
  match target mock method positional keywords with
  | .error refusal => { result := .error refusal, recording }
  | .ok (double, arguments) => recording.call double arguments react

def perform (mock : Mock) (recording : Recording) (operation : Operation)
    (react : Reaction := .returning) : Performance :=
  match operation with
  | .invoke method positional keywords => recording.invoke mock method positional keywords react
  | .stub method value => recording.assign (resultField mock method) value
  | .stubClosure method parameter value =>
    recording.assign (closureField mock method parameter) value
  | .invoked method =>
    recording.observe do recording.read (← findMethod mock method).flag
  | .parameters method =>
    recording.observe do recording.read (← findMethod mock method).record
  | .stubProperty name value =>
    recording.assign (stubField mock name) value
  | .getProperty name =>
    recording.observe do recording.read (← stubField mock name)
  | .setProperty name value => recording.assign (writeField mock name) value
  | .read field => recording.observe (recording.read field)
  | .member field =>
    recording.observe <|
      if (recording.cell? field).isSome then recording.read field else .error (.noMember field)

end Recording

end TestDouble
