import TestDouble.Mock.Derivation
import TestDouble.Mock.Print
import TestDouble.Proofs.Protocol.Refinement

/-!
# Test doubles have no lines

Neither the names of fields nor anything that is printed depends on the lines where requirements
were declared, and so a test double is the same for protocols that differ in their lines only.
-/

namespace TestDouble

/-! ## Field names -/

namespace FieldName

@[simp]
theorem overloadKey_unlined (method : Method) : overloadKey method.unlined = overloadKey method :=
  rfl

@[simp] theorem overloads_unlined (methods : List Method) (method : Method) :
    overloads (methods.map Method.unlined) method.unlined =
      (overloads methods method).map Method.unlined := by
  simp only [overloads, List.filter_map, Function.comp_def, overloadKey_unlined]
  rfl

@[simp] theorem suffix_unlined (method : Method) (distinction : Distinction) :
    distinction.suffix method.unlined = distinction.suffix method := by
  cases distinction <;> rfl

@[simp] theorem separates_unlined (methods : List Method) (distinction : Distinction) :
    distinction.separates (methods.map Method.unlined) = distinction.separates methods := by
  simp only [Distinction.separates, List.map_map, Function.comp_def, suffix_unlined]
  rfl

@[simp] theorem proposal_unlined (methods earlier : List Method) (method : Method) :
    proposal (methods.map Method.unlined) (earlier.map Method.unlined) method.unlined =
      proposal methods earlier method := by
  simp only [proposal, overloads_unlined, List.length_map, separates_unlined, suffix_unlined]
  rfl

@[simp] theorem proposals_unlined (methods : List Method) :
    proposals (methods.map Method.unlined) = proposals methods := by
  rw [proposals, proposals, List.zipIdx_map, List.map_map]
  refine List.map_congr_left fun (method, i) _ ↦ ?_
  simp only [Function.comp_apply, Prod.map_apply, ← List.map_take]
  exact proposal_unlined methods (methods.take i) method

@[simp] theorem assign_unlined (methods : List Method) (reserved : List String) :
    assign (methods.map Method.unlined) reserved = assign methods reserved := by
  simp only [assign, proposals_unlined, List.getElem?_map]
  rcases methods[(settle reserved (proposals methods)).length]? with _ | method
  · rfl
  · rcases (proposals methods)[(settle reserved (proposals methods)).length]? with _ | name <;> rfl

end FieldName

/-! ## Test doubles -/

namespace Mock

/-- The test double without the lines of the requirements. -/
def unlined (mock : Mock) : Mock :=
  { mock with
    properties := mock.properties.map Property.unlined
    methods := mock.methods.map fun double ↦ { double with method := double.method.unlined } }

@[simp] theorem members_unlined (mock : Mock) : mock.unlined.members = mock.members := by
  simp only [members, unlined, List.map_map, List.flatMap_map]
  rfl

theorem checkMembers_unlined (mock : Mock) :
    mock.unlined.checkMembers = mock.checkMembers.map unlined := by
  rw [checkMembers, checkMembers, members_unlined]
  split <;> rfl

@[simp] theorem print_unlined (style : Style) (mock : Mock) :
    mock.unlined.print style = mock.print style := by
  simp only [print, lines, unlined, List.flatMap_map]
  rfl

@[simp]
theorem reserved_unlined (merged : Protocol) : reserved merged.unlined = reserved merged := by
  simp only [reserved, Protocol.unlined, List.flatMap_map]
  rfl

theorem ofMerged_unlined (style : Style) (merged : Protocol) (names : List String) :
    ofMerged style merged.unlined names = (ofMerged style merged names).unlined := by
  simp only [ofMerged, Protocol.unlined, unlined, List.zipWith_map_left, List.map_zipWith]
  rfl

/-- What is derived from a protocol depends, up to lines, on what it requires. -/
theorem ofProtocol_congr (style : Style) {known known' : Catalogue}
    {protocol protocol' : Protocol}
    (h : (protocol.withInherited known).unlined = (protocol'.withInherited known').unlined) :
    (ofProtocol style known protocol).map unlined =
      (ofProtocol style known' protocol').map unlined := by
  have hassign (merged : Protocol) : FieldName.assign merged.methods (reserved merged) =
      FieldName.assign merged.unlined.methods (reserved merged.unlined) := by
    rw [reserved_unlined, Protocol.unlined, FieldName.assign_unlined]
  have hname : protocol.name = protocol'.name := congrArg (·.name) h
  simp only [ofProtocol]
  rw [hassign, hassign (protocol'.withInherited known'), h, hname]
  cases FieldName.assign (protocol'.withInherited known').unlined.methods
      (reserved (protocol'.withInherited known').unlined) with
  | error fault => rfl
  | ok names =>
    simp only [← checkMembers_unlined, ← ofMerged_unlined, h]

end Mock

end TestDouble
