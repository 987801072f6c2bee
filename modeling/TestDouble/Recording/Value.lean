import TestDouble.Text.Quoted

/-!
# Values

What is passed to a test double and returned by it. The fields of a test double hold values of any
type, so there is one type for all of them.
-/

namespace TestDouble

inductive Value where
  | null
  | bool (value : Bool)
  | number (value : Int)
  | text (value : String)
  | list (items : List Value)
  | object (fields : List (String × Value))
  | tuple (items : List Value)
  /-- A closure that does nothing but tell its name and its arguments. -/
  | closure (name : String)
  deriving Repr, Inhabited

namespace Value

/-- The value of no interest. -/
def unit : Value := tuple []

def isNull : Value → Bool
  | null => true
  | _ => false

/-- The name of the value's type in messages. -/
def typeName : Value → String
  | null => "NoneType"
  | bool _ => "bool"
  | number _ => "int"
  | text _ => "str"
  | list _ => "list"
  | object _ => "dict"
  | tuple _ => "tuple"
  | closure _ => "function"

mutual

/-- How a message shows a value inside another one. -/
def shown : Value → String
  | null => "None"
  | bool value => if value then "True" else "False"
  | number value => toString value
  | text value => Text.quoted value
  | list items => "[" ++ String.intercalate ", " (shownItems items) ++ "]"
  | object fields => "\x7b" ++ String.intercalate ", " (shownFields fields) ++ "\x7d"
  | tuple [item] => "(" ++ shown item ++ ",)"
  | tuple items => "(" ++ String.intercalate ", " (shownItems items) ++ ")"
  | closure name => s!"{name}()"

def shownItems : List Value → List String
  | [] => []
  | item :: items => shown item :: shownItems items

/-- The fields of an object, in their order. -/
def shownFields : List (String × Value) → List String
  | [] => []
  | (name, value) :: fields =>
    (Text.quoted name ++ ": " ++ shown value) :: shownFields fields

end

/-- How a message shows a value that is called. A text stands there without quotes. -/
def calleeName : Value → String
  | text value => value
  | value => value.shown

/-- The parts of a value that can be passed as arguments of their own: the items of a list or tuple,
the characters of a text, the names in an object. -/
def parts? : Value → Option (List Value)
  | list items | tuple items => some items
  | text value => some (value.toList.map fun c ↦ text c.toString)
  | object fields => some (fields.map fun (name, _) ↦ text name)
  | null | bool _ | number _ | closure _ => none

end Value

end TestDouble
