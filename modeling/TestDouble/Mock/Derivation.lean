import TestDouble.FieldName.Overload
import TestDouble.Mock.Basic
import TestDouble.Protocol.Refinement
import TestDouble.Style

/-!
# Deriving test doubles

The test double of a protocol covers the requirements of all protocols that it refines. Its methods
get names whose fields are free, and the result is refused where two members would still have one
name, as the field for a closure's arguments may coincide with any other.
-/

namespace TestDouble.Mock

/-! ## Unique members -/

/-- The first member whose name an earlier one has: its name, its owner and the earlier owner. -/
def repeatedFrom (earlier : List (String × String)) :
    List (String × String) → Option (String × String × String)
  | [] => none
  | (name, owner) :: members =>
    match earlier.lookup name with
    | some first => some (name, owner, first)
    | none => repeatedFrom ((name, owner) :: earlier) members

/-- The test double, if no two of its members have one name. -/
def checkMembers (mock : Mock) : Except Fault Mock :=
  match repeatedFrom [] mock.members with
  | some (name, owner, first) =>
    .error { cause := .memberTaken name first, place := ⟨some mock.protocol, some owner⟩ }
  | none => .ok mock

/-! ## Deriving -/

/-- The fields that methods cannot have. -/
def reserved (merged : Protocol) : List String :=
  merged.properties.flatMap fun property ↦ FieldName.ofProperty property.name

/-- A class conforms to this protocol by inheriting from `NSObject`. -/
def objectProtocol : String := "NSObjectProtocol"

/-- The test double of a protocol whose inherited requirements are merged, with given names for its
methods. -/
def ofMerged (style : Style) (merged : Protocol) (names : List String) : Mock where
  name := style.className merged.name
  protocol := merged.name
  properties := merged.properties
  methods := merged.methods.zipWith MethodDouble.mk names
  genericParameters := merged.associatedTypes.map (·.genericParameter)
  superclass? := if objectProtocol ∈ merged.inherited then some "NSObject" else none
  isPublic := style.isPublic?.getD merged.isPublic

/-- The test double of a protocol, given the other protocols that it may refine. -/
def ofProtocol (style : Style) (known : Catalogue) (protocol : Protocol) : Except Fault Mock := do
  let merged := protocol.withInherited known
  match FieldName.assign merged.methods (reserved merged) with
  | .error fault => .error { fault with place.protocol? := some protocol.name }
  | .ok names => (ofMerged style merged names).checkMembers

/-! ## Notices -/

def nameNotice? (protocol : String) (double : MethodDouble) : Option Notice :=
  if double.name ≠ double.method.name then
    some (.tracked protocol double.method.selector double.name)
  else none

/-- What there is to tell about closures that are not called. -/
def closureNotices (double : MethodDouble) : List Notice :=
  double.method.parameters.filterMap fun parameter ↦
    if parameter.isClosure ∧ (Callback.ofParameter? double.method double.name parameter).isNone then
      some (.uncalled parameter.name double.method.selector)
    else none

def summaryNotice (mock : Mock) : Notice :=
  .derived mock.name mock.methods.length mock.properties.length mock.fields.length

/-- What there is to tell about deriving the test double of a protocol. -/
def notices (style : Style) (known : Catalogue) (protocol : Protocol) : List Notice :=
  let merged := protocol.withInherited known
  let naming :=
    protocol.ancestryNotices known ++ FieldName.notices merged.methods (reserved merged)
  match FieldName.assign merged.methods (reserved merged) with
  | .error _ => naming
  | .ok names =>
    let mock := ofMerged style merged names
    naming ++ mock.methods.filterMap (nameNotice? protocol.name)
      ++ mock.methods.flatMap closureNotices
      ++ (if mock.checkMembers.isOk then [summaryNotice mock] else [])

end TestDouble.Mock
