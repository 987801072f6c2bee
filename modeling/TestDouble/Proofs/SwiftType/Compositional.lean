import TestDouble.Proofs.Reader.Compositional
import TestDouble.SwiftType.Read

/-!
# What holds of the readers for types

The grammar of types is gone through once, rule by rule, for any property that holds of the steps of
reading and passes from parts to the whole. A rule has the property if the reader for the types
inside it has it. Each turn of a repetition is seen to advance on the way.
-/

namespace TestDouble

/-! ## Turns -/

namespace SwiftType

open Reader

/-- One turn of reading the elements of a tuple. -/
def elementTurn (type : Reader SwiftType) (opener : Token) : Reader (Turn Element) := do
  let tokens ← ahead
  if stands [")"] tokens then return .stop
  if tokens.isEmpty then fail .openTuple opener.line
  let element ← element type
  if ← accept "," then return .more element else return .last element

/-- One turn of reading the further parts of a composition. -/
def partTurn (type : Reader SwiftType) : Reader (Turn Component) := do
  if ← accept "&" then return .more (← component type) else return .stop

end SwiftType

namespace Reader.Receding

variable {P : ∀ ⦃α : Type⦄, Reader α → Prop} (h : Receding P)
include h

/-! ## Pieces that are kept as text -/

theorem adjoinedGroup (bracket : Bracket) : P (TestDouble.adjoinedGroup bracket) :=
  h.bind h.ahead fun _ ↦ h.ite (h.bind (h.group _) fun _ ↦ h.pure _) (h.pure _)

theorem readAttribute (beforeType : Bool) : P (TestDouble.readAttribute beforeType) :=
  h.bind h.next? fun _ ↦ h.ite (h.pure _) (h.bind (h.adjoinedGroup _) fun _ ↦ h.pure _)

/-- An attribute is at least its name. -/
theorem leavesBelow_attribute {α : Type} {values : α → Prop} {beforeType : Bool}
    {next : String → Reader α} {scope : Scope} {token : Token} {tokens : List Token}
    (hnext : ∀ text, P (next text)) : LeavesBelow (token :: tokens).length values
      (TestDouble.readAttribute beforeType >>= next) scope (token :: tokens) := by
  refine .bind fun text mid hread ↦ .of_recedes (h.recedes (hnext text)) ?_
  refine Nat.lt_succ_of_le (h.recedes ?_ (reads_next?_bind_iff.mp hread))
  exact h.ite (h.pure _) (h.bind (h.adjoinedGroup _) fun _ ↦ h.pure _)

theorem specifier : P SwiftType.specifier := by
  refine h.bind h.ahead fun tokens ↦ h.ite ?_ (h.bind (h.accept _) fun _ ↦ h.ite (h.pure _) ?_)
  · exact h.bind (h.readAttribute _) fun _ ↦ h.pure _
  · exact h.ite (h.bind h.next? fun _ ↦ h.pure _) (h.pure _)

theorem advances_specifier : Advances SwiftType.specifier := by
  intro scope tokens
  refine .ahead_bind (.ite (fun hattribute ↦ ?_) fun _ ↦ ?_)
  · cases tokens with
    | nil => cases hattribute
    | cons token tokens => exact h.leavesBelow_attribute fun _ ↦ h.pure _
  · refine .accept_ite (Nat.le_refl _) (h.recedes (h.pure _)) (.ite (fun hmodifies ↦ ?_)
      fun _ ↦ .pure id)
    rcases tokens with _ | ⟨word, tokens⟩
    · cases hmodifies
    · exact .next?_bind (.of_recedes (h.recedes (h.pure _)) (Nat.lt_succ_self _))

theorem missing {α : Type} : P (SwiftType.missing : Reader α) :=
  h.bind h.ahead fun _ ↦ h.fail none rfl

section Rules

variable {type : Reader SwiftType} (htype : P type)
include htype

theorem genericArguments : P (SwiftType.genericArguments type) :=
  h.bind h.ahead fun _ ↦ h.ite (h.bind h.skip fun _ ↦ h.bind (h.separated htype) fun _ ↦
    h.bind (h.expect _ _) fun _ ↦ h.pure _) (h.pure _)

omit htype in
theorem elementLabel : P SwiftType.elementLabel := by
  refine h.bind h.ahead fun tokens ↦ ?_
  rcases tokens with _ | ⟨first, _ | ⟨second, rest⟩⟩
  · exact h.pure _
  · exact h.pure _
  · refine h.ite (h.bind h.skip fun _ ↦ h.bind h.skip fun _ ↦ h.pure _) (h.ite ?_ (h.pure _))
    exact h.bind h.skip fun _ ↦ h.bind h.skip fun _ ↦ h.bind h.skip fun _ ↦ h.pure _

theorem element : P (SwiftType.element type) :=
  h.bind h.elementLabel fun _ ↦ h.bind htype fun _ ↦ h.bind (h.accept _) fun _ ↦ h.pure _

theorem elementTurn (opener : Token) :
    P (SwiftType.elementTurn type opener) ∧ Advances (SwiftType.elementTurn type opener) := by
  refine ⟨h.bind h.ahead fun tokens ↦ ?_, fun scope tokens ↦ .ahead_bind ?_⟩
  · refine h.ite (h.pure _) (h.optionally (h.fail _ rfl) ?_)
    exact h.bind (h.element htype) fun _ ↦ h.bind (h.accept _) fun _ ↦ h.ite (h.pure _) (h.pure _)
  · refine .ite (fun _ ↦ .pure id) fun _ ↦ .ite (fun _ ↦ .fail_bind) fun _ ↦ ?_
    exact h.leavesBelow_item (h.element htype)

theorem tuple : P (SwiftType.tuple type) :=
  h.bind (h.expect _ _) fun opener ↦ h.bind (h.repeated (h.elementTurn htype opener).1
    (h.elementTurn htype opener).2) fun _ ↦ h.bind (h.expect _ _) fun _ ↦ h.pure _

theorem collection : P (SwiftType.collection type) := by
  refine h.bind h.skip fun _ ↦ h.bind htype fun _ ↦ h.bind (h.accept _) fun _ ↦ h.ite ?_ ?_
  · exact h.bind htype fun _ ↦ h.bind (h.expect _ _) fun _ ↦ h.pure _
  · exact h.bind (h.expect _ _) fun _ ↦ h.pure _

theorem primary : P (SwiftType.primary type) := by
  refine h.bind h.ahead fun tokens ↦ ?_
  cases tokens with
  | nil => exact h.missing
  | cons token rest =>
    refine h.ite (h.tuple htype) (h.ite (h.collection htype) (h.ite ?_ h.missing))
    exact h.bind h.skip fun _ ↦ h.bind (h.genericArguments htype) fun _ ↦ h.pure _

theorem suffix : P (SwiftType.suffix type) := by
  refine h.bind h.ahead fun tokens ↦ ?_
  rcases tokens with _ | ⟨token, rest⟩
  · exact h.pure _
  refine h.ite (h.pure _) (h.ite (h.bind h.skip fun _ ↦ h.pure _)
    (h.ite (h.bind h.skip fun _ ↦ h.pure _) (h.ite ?_ (h.pure _))))
  cases rest with
  | nil => exact h.pure _
  | cons name rest =>
    refine h.ite (h.bind h.skip fun _ ↦ h.bind h.skip fun _ ↦ ?_) (h.pure _)
    exact h.bind (h.genericArguments htype) fun _ ↦ h.pure _

theorem advances_suffix : Advances (SwiftType.suffix type) := by
  intro scope tokens
  refine .ahead_bind ?_
  rcases tokens with _ | ⟨token, rest⟩
  · exact .pure id
  have hskip {next : Unit → Reader (Turn SwiftType.Suffix)} (hnext : P (next ())) :
      LeavesBelow (token :: rest).length Turn.AsksForMore (skip >>= next) scope (token :: rest) :=
    .skip_bind (.of_recedes (h.recedes hnext) (Nat.lt_succ_self _))
  refine .ite (fun _ ↦ .pure id) fun _ ↦ .ite (fun _ ↦ hskip (h.pure _)) fun _ ↦
    .ite (fun _ ↦ hskip (h.pure _)) fun _ ↦ .ite (fun _ ↦ ?_) fun _ ↦ .pure id
  cases rest with
  | nil => exact .pure id
  | cons name rest =>
    refine .ite (fun _ ↦ hskip (h.bind h.skip fun _ ↦ ?_)) fun _ ↦ .pure id
    exact h.bind (h.genericArguments htype) fun _ ↦ h.pure _

theorem component : P (SwiftType.component type) :=
  h.bind (h.primary htype) fun _ ↦ h.bind (h.repeated (h.suffix htype) (h.advances_suffix htype))
    fun _ ↦ h.pure _

omit htype in
theorem functionEffect : P SwiftType.functionEffect := by
  refine h.bind (h.accept _) fun _ ↦ h.ite (h.pure _) (h.bind (h.accept _) fun _ ↦ ?_)
  exact h.ite (h.bind (h.adjoinedGroup _) fun _ ↦ h.pure _) (h.pure _)

omit htype in
theorem advances_functionEffect : Advances SwiftType.functionEffect := by
  intro scope tokens
  refine .accept_ite (Nat.le_refl _) (h.recedes (h.pure _))
    (.accept_ite (Nat.le_refl _) ?_ (.pure id))
  exact h.recedes (h.bind (h.adjoinedGroup _) fun _ ↦ h.pure _)

theorem function (lead : String) (parameters : SwiftType.Component) :
    P (SwiftType.function type lead parameters) :=
  h.bind (h.repeated h.functionEffect h.advances_functionEffect) fun _ ↦
    h.bind (h.expect _ _) fun _ ↦ h.bind htype fun _ ↦ h.pure _

omit htype in
theorem lead : P SwiftType.lead :=
  h.bind h.ahead fun _ ↦ h.ite (h.bind h.next? fun _ ↦ h.pure _) (h.pure _)

theorem partTurn : P (SwiftType.partTurn type) ∧ Advances (SwiftType.partTurn type) := by
  have hmore : P (SwiftType.component type >>= fun part ↦ Pure.pure (Turn.more part)) :=
    h.bind (h.component htype) fun _ ↦ h.pure _
  refine ⟨h.bind (h.accept _) fun _ ↦ h.ite hmore (h.pure _), fun scope tokens ↦ ?_⟩
  exact .accept_ite (Nat.le_refl _) (h.recedes hmore) (.pure id)

theorem bare : P (SwiftType.bare type) := by
  refine h.bind h.lead fun lead ↦ h.bind (h.sees _) fun _ ↦ h.bind (h.component htype) fun first ↦
    h.bind h.ahead fun _ ↦ h.ite (h.function htype lead first) (h.bind (h.sees _) fun _ ↦ ?_)
  refine h.ite (h.bind ?_ fun _ ↦ h.pure _) (h.ite (h.pure _) (h.pure _))
  exact h.repeated (h.partTurn htype).1 (h.partTurn htype).2

theorem annotated : P (SwiftType.annotated type) :=
  h.bind (h.repeated h.specifier h.advances_specifier) fun _ ↦ h.bind (h.bare htype) fun _ ↦
    h.bind (h.tell _) fun _ ↦ h.pure _

end Rules

theorem swiftType : P SwiftType.read := by
  have hwithin (depth : Nat) : P (SwiftType.readWithin depth) := by
    induction depth with
    | zero => exact h.missing
    | succ depth ih => exact h.annotated ih
  have hread : SwiftType.read = fun scope tokens ↦
      (SwiftType.readWithin tokens.length) scope tokens := rfl
  rw [hread]
  exact h.onTokens fun tokens ↦ hwithin tokens.length

end Reader.Receding

end TestDouble
