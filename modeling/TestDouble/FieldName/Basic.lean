import TestDouble.Protocol.Basic
import TestDouble.Text.Uppercase

/-!
# Field names

The stored fields of a test double are named for the members they track: `invokedSave` tells that
`save` was called, `invokedSaveParameters` with what, `stubbedSaveResult` what it returns.
-/

namespace TestDouble.FieldName

/-- A name without the backticks that make a reserved word a name. -/
def bare (name : String) : String :=
  String.ofList
    ((name.toList.dropWhile (· = '\x60')).reverse.dropWhile (· = '\x60')).reverse

/-- A bare name with its first character in upper case. -/
def capitalized (name : String) : String :=
  match (bare name).toList with
  | [] => ""
  | c :: cs => String.ofList (Text.upperCase c ++ cs)

def invoked (name : String) : String :=
  "invoked" ++ capitalized name

def invokedParameters (name : String) : String :=
  "invoked" ++ capitalized name ++ "Parameters"

def stubbed (name : String) : String :=
  "stubbed" ++ capitalized name

def stubbedResult (name : String) : String :=
  "stubbed" ++ capitalized name ++ "Result"

/-- The field for the arguments of a closure that is passed to a method. -/
def stubbedClosure (name parameter : String) : String :=
  "stubbed" ++ capitalized name ++ capitalized parameter ++ "Result"

/-- The fields that a method of the given name may have, arguments of closures left out. -/
def ofMethod (name : String) : List String :=
  [invoked name, invokedParameters name, stubbedResult name]

/-- The fields that a property of the given name may have. -/
def ofProperty (name : String) : List String :=
  [invoked name, stubbed name]

end TestDouble.FieldName
