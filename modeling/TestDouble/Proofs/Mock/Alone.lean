import TestDouble.Proofs.Mock.Members
import TestDouble.Protocol.Read

/-!
# Protocols that refine nothing

Inheritance clauses are followed by a recursion that no evaluation gets through. A protocol without
such a clause is merged with nothing but itself, and then its test double can be evaluated.
-/

namespace TestDouble

/-- The protocol with each requirement once, which is all that merging does to it if it refines
nothing. -/
def Protocol.alone (protocol : Protocol) : Protocol :=
  { protocol with
    methods := distinctBy (·.identity) protocol.methods
    properties := distinctBy (·.identity) protocol.properties
    associatedTypes := distinctBy (·.name) protocol.associatedTypes
    inherited := [] }

theorem Protocol.withInherited_of_inherited_eq_nil (known : Catalogue) {protocol : Protocol}
    (h : protocol.inherited = []) : protocol.withInherited known = protocol.alone := by
  have hancestry : protocol.ancestry known = { visited := [protocol.name] } := by
    rw [ancestry, h, Ancestry.follow]
  simp [withInherited, hancestry, alone]

namespace Mock

/-- The test double of a protocol that refines nothing. -/
def ofAlone? (protocol : Protocol) : Option Mock :=
  if protocol.inherited = [] then
    (FieldName.assign protocol.alone.methods (reserved protocol.alone)).toOption.bind fun names ↦
      (ofMerged .standard protocol.alone names).checkMembers.toOption
  else none

theorem ofProtocol_of_ofAlone? {protocol : Protocol} {mock : Mock}
    (h : ofAlone? protocol = some mock) (known : Catalogue) :
    ofProtocol .standard known protocol = .ok mock := by
  obtain ⟨hinherited, h⟩ := Option.ite_none_right_eq_some.mp h
  obtain ⟨names, hnames, hmock⟩ := Option.bind_eq_some_iff.mp h
  rw [Except.toOption_eq_some_iff] at hnames hmock
  rw [ofProtocol, Protocol.withInherited_of_inherited_eq_nil known hinherited]
  simp only [hnames, hmock]

/-- What a source text leads to can be found by evaluation. -/
theorem exists_of_any_ofAlone? {source : String} {p : Mock → Bool}
    (h : ((Protocol.ofText source).toOption.bind ofAlone?).any p = true) :
    ∃ protocol mock, Protocol.ofText source = .ok protocol ∧
      ofProtocol .standard .empty protocol = .ok mock ∧ p mock = true := by
  obtain ⟨mock, hmock, hp⟩ := (Option.any_eq_true _ _).mp h
  obtain ⟨protocol, hprotocol, hmock⟩ := Option.bind_eq_some_iff.mp hmock
  exact ⟨protocol, mock, Except.toOption_eq_some_iff.mp hprotocol,
    ofProtocol_of_ofAlone? hmock .empty, hp⟩

end Mock

end TestDouble
