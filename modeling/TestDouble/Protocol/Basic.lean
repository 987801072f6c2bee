import TestDouble.Method

/-!
# Protocols

A protocol and what it requires, in the order of declaration.
-/

namespace TestDouble

structure Property where
  name : String
  type : SwiftType
  hasSetter : Bool := false
  isStatic : Bool := false
  line? : Option Int := none
  deriving Repr

/-- What two declarations of one property agree on. -/
structure Property.Identity where
  isStatic : Bool
  name : String
  type : String
  hasSetter : Bool
  deriving DecidableEq, Repr

def Property.identity (property : Property) : Identity where
  isStatic := property.isStatic
  name := property.name
  type := property.type.declared
  hasSetter := property.hasSetter

structure AssociatedType where
  name : String
  constraint : String := ""
  deriving DecidableEq, Repr

/-- The type as a parameter of a generic class. -/
def AssociatedType.genericParameter (type : AssociatedType) : String :=
  if type.constraint = "" then type.name else s!"{type.name}: {type.constraint}"

structure Protocol where
  name : String
  methods : List Method := []
  properties : List Property := []
  associatedTypes : List AssociatedType := []
  /-- The names in the inheritance clause. -/
  inherited : List String := []
  /-- The access level as written, or no text. -/
  access : String := ""
  line? : Option Int := none
  attributes : List String := []

def Protocol.isPublic (protocol : Protocol) : Bool :=
  protocol.access = "public" || protocol.access = "open"

end TestDouble
