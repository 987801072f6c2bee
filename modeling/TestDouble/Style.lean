import TestDouble.Text.Identifier
import TestDouble.Text.Quoted

/-!
# Styles

How test doubles are named and laid out. A style is what a draft asks for, once it is known to give
valid Swift.
-/

namespace TestDouble

/-- A style as asked for. -/
structure Style.Draft where
  /-- Spaces per level of indentation. -/
  indent : Int := 4
  /-- Whether members are public. Without a choice they are where the protocol is. -/
  isPublic? : Option Bool := none
  /-- What stands before the protocol's name in the name of the class. -/
  classPrefix : String := "Mock"
  /-- What stands after the protocol's name in the name of the file. -/
  fileSuffix : String := "Mock"
  deriving DecidableEq, Repr

structure Style extends Style.Draft where
  indent_pos : 0 < indent
  classPrefix_identifier : Text.isIdentifier classPrefix = true

namespace Style

/-- Why a draft is no style. -/
inductive Refusal where
  | indent (found : Int)
  | classPrefix (found : String)
  deriving DecidableEq, Repr

def Refusal.message : Refusal → String
  | indent found => s!"indent must be positive, got {found}"
  | classPrefix found => s!"mock_prefix must be an identifier, got {Text.quoted found}"

/-- The style that a draft asks for. -/
def Draft.check (draft : Draft) : Except Refusal Style :=
  if hindent : 0 < draft.indent then
    if hname : Text.isIdentifier draft.classPrefix then
      .ok { draft with indent_pos := hindent, classPrefix_identifier := hname }
    else .error (.classPrefix draft.classPrefix)
  else .error (.indent draft.indent)

/-- Four spaces, names after the pattern `MockCache` in `CacheMock.swift`, and the access level of
the protocol. -/
def standard : Style where
  indent_pos := by decide
  classPrefix_identifier := by decide +kernel

instance : Inhabited Style := ⟨standard⟩

/-- The name of the class for a protocol. -/
def className (style : Style) (protocol : String) : String :=
  style.classPrefix ++ protocol

/-- The name of the file for a protocol. -/
def fileName (style : Style) (protocol : String) : String :=
  s!"{protocol}{style.fileSuffix}.swift"

/-- One level of indentation. -/
def margin (style : Style) : String :=
  "".pushn ' ' style.indent.toNat

end Style

end TestDouble
