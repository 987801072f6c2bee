import TestDouble.Text.Quoted

/-!
# Swift types

A type is known by its text. Only three things are taken out of it: what stands before it, whether
it is optional at the outermost level, and, for a function type, its arguments and effects, which
tell how a closure of that type can be called.
-/

namespace TestDouble

/-! ## Optionality -/

/-- How a type is wrapped at its outermost level. -/
inductive Optionality where
  | required
  | optional
  | implicitlyUnwrapped
  deriving DecidableEq, Repr

namespace Optionality

def all : List Optionality :=
  [required, optional, implicitlyUnwrapped]

def name : Optionality → String
  | required => "required"
  | optional => "optional"
  | implicitlyUnwrapped => "implicitly_unwrapped"

/-- What follows the type in Swift. -/
def marker : Optionality → String
  | required => ""
  | optional => "?"
  | implicitlyUnwrapped => "!"

def ofMarker? (marker : String) : Option Optionality :=
  all.find? (·.marker = marker)

/-- The complaint about a text that marks no optionality. -/
def unknownMarker (marker : String) : String :=
  s!"Unknown optionality marker: {Text.quoted marker}"

end Optionality

/-! ## Types -/

/-- How a closure is called. -/
structure Signature (Argument : Type) where
  arguments : List Argument := []
  effects : List String := []
  deriving DecidableEq, Repr

namespace Signature

def isAsync (signature : Signature α) : Bool :=
  "async" ∈ signature.effects

/-- Whether calls can fail, with or without a stated error type. -/
def throws (signature : Signature α) : Bool :=
  signature.effects.any fun effect ↦ "throws".toList.isPrefixOf effect.toList

end Signature

structure SwiftType where
  /-- The text without what stands before it and without its outermost marker. -/
  base : String
  optionality : Optionality := .required
  /-- Attributes and ownership specifiers. -/
  attributes : List String := []
  isInout : Bool := false
  /-- A marker can follow the text in parentheses only. -/
  needsParens : Bool := false
  signature? : Option (Signature SwiftType) := none
  deriving Repr

namespace SwiftType

def isOptional (type : SwiftType) : Bool :=
  type.optionality ≠ .required

def isClosure (type : SwiftType) : Bool :=
  type.signature?.isSome

/-- Whether a closure of the type may outlive the call it is passed to. Optional closures always
may. -/
def isEscaping (type : SwiftType) : Bool :=
  type.isOptional || "@escaping" ∈ type.attributes

def isVoid (type : SwiftType) : Bool :=
  type.optionality = .required && (type.base = "Void" || type.base = "()")

/-- The base with a marker. -/
def wrapped (type : SwiftType) : Optionality → String
  | .required => type.base
  | optionality =>
    if type.needsParens then s!"({type.base}){optionality.marker}"
    else type.base ++ optionality.marker

/-- The type without what stands before it. -/
def text (type : SwiftType) : String :=
  type.wrapped type.optionality

/-- The type as a parameter or a result declares it. -/
def declared (type : SwiftType) : String :=
  String.join (type.attributes.map (· ++ " ")) ++ (if type.isInout then "inout " else "")
    ++ type.text

/-- The type of a tuple element that keeps a value. A tuple element cannot be implicitly unwrapped,
so both kinds of optionals are kept as plain ones. -/
def storage (type : SwiftType) : String :=
  type.wrapped (if type.isOptional then .optional else .required)

/-- The type of a variable that has to be set before it is read. -/
def stub (type : SwiftType) : String :=
  type.wrapped .implicitlyUnwrapped

/-- The type inside one more optional. -/
def moreOptional (type : SwiftType) : String :=
  if type.isOptional then type.text ++ "?" else type.wrapped .optional

end SwiftType

end TestDouble
