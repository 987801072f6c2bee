import TestDouble.Mock.Statement
import TestDouble.Notice
import TestDouble.Style

/-!
# Printing test doubles

The layout is fixed, so that printed files can be compared with files that are kept: the class with
an empty line after its first one, then the properties and the methods, each with its fields before
it and without empty lines between them.
-/

namespace TestDouble

/-- The signature of a method, without modifiers and body. -/
def Method.signature (method : Method) : String :=
  let parameters := String.intercalate ", " (method.parameters.map (·.declaration))
  let effects := String.join (method.effects.map (" " ++ ·))
  let result := (method.result?.map (" -> " ++ ·.declared)).getD ""
  let condition := if method.whereClause = "" then "" else " where " ++ method.whereClause
  s!"func {method.name}{method.genericClause}({parameters}){effects}{result}{condition}"

/-- What stands before a member: the margin, the access level and the modifier. -/
def memberLead (margin access : String) (isStatic : Bool) : String :=
  margin ++ access ++ (if isStatic then "static " else "")

def MethodDouble.lines (access indent : String) (double : MethodDouble) : List String :=
  let lead := memberLead indent access double.method.isStatic
  let margin := indent ++ indent
  [s!"{lead}var {double.flag} = false",
   s!"{lead}var {double.record}: {double.recordType}?"]
    ++ (double.callbackStubs ++ double.resultStub?.toList).map
      (fun stub ↦ s!"{lead}var {stub.name}: {stub.type}")
    ++ [s!"{lead}{double.method.signature} \x7b"]
    ++ double.body.flatMap (·.lines margin indent)
    ++ [s!"{indent}\x7d"]

def Property.lines (access indent : String) (property : Property) : List String :=
  let lead := memberLead indent access property.isStatic
  let margin := indent ++ indent
  let written := property.type.wrapped .optional
  let fetch := s!"return {property.stubField}"
  (property.writeField?.map fun field ↦ s!"{lead}var {field}: {written}").toList
    ++ [s!"{lead}var {property.stubField}: {property.type.stub}",
        s!"{lead}var {property.name}: {property.type.declared} \x7b"]
    ++ (match property.writeField? with
      | some field =>
        [s!"{margin}set \x7b", s!"{margin}{indent}{field} = newValue", s!"{margin}\x7d",
         s!"{margin}get \x7b", s!"{margin}{indent}{fetch}", s!"{margin}\x7d"]
      | none => [s!"{margin}{fetch}"])
    ++ [s!"{indent}\x7d"]

namespace Mock

/-- The first line of the class. -/
def header (mock : Mock) (access : String) : String :=
  let generics :=
    if mock.genericParameters.isEmpty then ""
    else "<" ++ String.intercalate ", " mock.genericParameters ++ ">"
  let parents := String.intercalate ", " (mock.superclass?.toList ++ [mock.protocol])
  s!"{access}class {mock.name}{generics}: {parents} \x7b"

/-- The lines of the class. The last one is empty, as the text ends with a line break. -/
def lines (style : Style) (mock : Mock) : List String :=
  let access := if mock.isPublic then "public " else ""
  [mock.header access, ""]
    ++ mock.properties.flatMap (·.lines access style.margin)
    ++ mock.methods.flatMap (·.lines access style.margin)
    ++ ["\x7d", ""]

/-- The class as Swift source. -/
def print (style : Style) (mock : Mock) : String :=
  String.intercalate "\n" (mock.lines style)

def printNotice (style : Style) (mock : Mock) : Notice :=
  .printed mock.name (mock.lines style).length

end Mock

end TestDouble
