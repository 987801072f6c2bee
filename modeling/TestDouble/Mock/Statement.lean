import TestDouble.Mock.Basic

/-!
# Override bodies

The statements in the body of an overriding method, in the few forms they have: they raise the flag,
keep the arguments, call closures, and return what a test has set.
-/

namespace TestDouble

/-- An expression in an override body. -/
inductive Term where
  | unit
  | named (name : String)
  /-- An element of a tuple. -/
  | element (tuple : String) (index : Nat)
  deriving DecidableEq, Repr

def Term.text : Term → String
  | unit => "()"
  | named name => name
  | element tuple index => s!"{tuple}.{index}"

/-- The call of a closure. -/
structure Call where
  closure : String
  arguments : List Term
  isOptional : Bool
  throws : Bool
  isAwaited : Bool
  deriving DecidableEq, Repr

namespace Call

/-- What stands before the call: its failure is ignored. -/
def lead (call : Call) : String :=
  (if call.throws then "try? " else "") ++ (if call.isAwaited then "await " else "")

/-- The closure, which is passed over where it is absent. -/
def callee (call : Call) : String :=
  if call.isOptional then call.closure ++ "?" else call.closure

def argumentText (call : Call) : String :=
  String.intercalate ", " (call.arguments.map (·.text))

def text (call : Call) : String :=
  s!"{call.lead}{call.callee}({call.argumentText})"

end Call

inductive Statement where
  | raise (flag : String)
  | keep (record : String) (values : List Term)
  | call (call : Call)
  /-- A call that is made if a field is set, whose value is then bound to a variable. -/
  | callIfSet (field binding : String) (call : Call)
  | giveBack (field : String)
  deriving DecidableEq, Repr

/-- The lines of a statement, after the margin of the body and with one more `indent` inside. -/
def Statement.lines (margin indent : String) : Statement → List String
  | .raise flag => [s!"{margin}{flag} = true"]
  | .keep record values => [s!"{margin}{record} = {tupleText (values.map Term.text)}"]
  | .call made => [s!"{margin}{made.text}"]
  | .callIfSet field binding made =>
    [s!"{margin}if let {binding} = {field} \x7b", s!"{margin}{indent}{made.text}", s!"{margin}\x7d"]
  | .giveBack field => [s!"{margin}return {field}"]

/-! ## The body of an override -/

/-- What is stored in a slot. -/
def Slot.value : Slot → Term
  | argument name _ _ => .named name
  | elided _ _ | filler => .unit

namespace Callback

/-- The variable that holds the arguments that a test has set. -/
def binding : String := "result"

/-- The arguments of the call: a single one as it is, several as the elements of a tuple. -/
def arguments (callback : Callback) : List Term :=
  match callback.arity with
  | 0 => []
  | 1 => [.named binding]
  | n => (List.range n).map (.element binding)

def call (callback : Callback) : Call where
  closure := callback.parameter
  arguments := callback.arguments
  isOptional := callback.isOptional
  throws := callback.throws
  isAwaited := callback.isAwaited

def statement (callback : Callback) : Statement :=
  match callback.stub? with
  | none => .call callback.call
  | some stub => .callIfSet stub.name binding callback.call

end Callback

namespace MethodDouble

/-- The tuple that keeps the arguments. -/
def recordValue (double : MethodDouble) : List Term :=
  double.slots.map (·.value)

/-- The body of the override. -/
def body (double : MethodDouble) : List Statement :=
  [.raise double.flag, .keep double.record double.recordValue]
    ++ double.callbacks.map (·.statement)
    ++ (double.resultStub?.map fun stub ↦ .giveBack stub.name).toList

end MethodDouble

end TestDouble
