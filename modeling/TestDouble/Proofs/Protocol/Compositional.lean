import TestDouble.Proofs.SwiftType.Compositional
import TestDouble.Protocol.Read

/-!
# What holds of the readers for protocols

The grammar of members and protocols is gone through in the same way as that of types. Two kinds of
faults come up: a check of what was read refuses a signature, and anything else is a fault of the
tokens.
-/

namespace TestDouble

open Reader

/-! ## Refused signatures -/

namespace Parameter

theorem kind_of_clashFrom {labels names : List String} {parameters : List Parameter} {cause : Cause}
    (h : clashFrom labels names parameters = some cause) : cause.kind = .signature := by
  induction parameters generalizing labels names with
  | nil => cases h
  | cons parameter parameters ih =>
    rw [clashFrom] at h
    split at h
    · obtain rfl := Option.some.inj h
      rfl
    split at h
    · obtain rfl := Option.some.inj h
      rfl
    · exact ih h

end Parameter

theorem Method.Draft.kind_of_check {draft : Draft} {cause : Cause}
    (h : draft.check = .error cause) : cause.kind = .signature := by
  rw [check] at h
  split at h
  · next hclash =>
    obtain rfl := Except.error.inj h
    exact Parameter.kind_of_clashFrom hclash
  · cases h

/-! ## Turns -/

/-- One turn of reading a parameter clause. -/
def Parameter.clauseTurn (opener : Token) (number : Nat) : Reader (Turn Parameter) := do
  let tokens ← ahead
  if stands [")"] tokens then return .stop
  if tokens.isEmpty then fail .openParameterClause opener.line
  let parameter ← Parameter.read (number + 1)
  if ← accept "," then return .more parameter else return .last parameter

namespace Protocol

/-- One turn of reading a body, where it does not end. -/
def memberTurn (name : String) : Reader (Turn Member) := do
  if ← accept ";" then return .more .nothing
  return .more (← Member.read name)

/-- One turn of reading the body of the named protocol. -/
def bodyTurn (name : String) (line : Nat) : Reader (Turn Member) := do
  let tokens ← ahead
  if stands ["\x7d"] tokens then return .stop
  if tokens.isEmpty then fail (.openBody name) line
  memberTurn name

end Protocol

namespace Reader.Receding

variable {P : ∀ ⦃α : Type⦄, Reader α → Prop} (h : Receding P)
include h

/-! ## Parameters -/

theorem leadTurn : P Lead.turn ∧ Advances Lead.turn := by
  refine ⟨h.bind h.ahead fun tokens ↦ ?_, fun scope tokens ↦ .ahead_bind ?_⟩
  · cases tokens with
    | nil => exact h.pure _
    | cons token rest =>
      refine h.ite (h.bind (h.readAttribute _) fun _ ↦ h.pure _) (h.ite (h.bind h.skip fun _ ↦ ?_)
        (h.ite (h.ite (h.pure _) (h.bind h.skip fun _ ↦ h.pure _)) (h.pure _)))
      exact h.optionally (h.group _) (h.pure _)
  · cases tokens with
    | nil => exact .pure id
    | cons token rest =>
      refine .ite (fun _ ↦ ?_) fun _ ↦ .ite (fun _ ↦ .skip_bind ?_) fun _ ↦ .ite (fun _ ↦ ?_)
        fun _ ↦ .pure id
      · exact h.leavesBelow_attribute fun _ ↦ h.pure _
      · exact .of_recedes (h.recedes (h.optionally (h.group _) (h.pure _))) (Nat.lt_succ_self _)
      · refine .ite (fun _ ↦ .pure id) fun _ ↦ .skip_bind ?_
        exact .of_recedes (h.recedes (h.pure _)) (Nat.lt_succ_self _)

theorem leads : P Lead.read :=
  h.repeated h.leadTurn.1 h.leadTurn.2

theorem parameter (position : Nat) : P (Parameter.read position) := by
  refine h.bind (h.expectName _) fun first ↦ h.bind h.ahead fun tokens ↦ h.optionally h.skip ?_
  refine h.bind (h.expect _ _) fun _ ↦ h.bind h.swiftType fun type ↦ h.bind (h.accept _) fun _ ↦ ?_
  exact h.bind (h.accept _) fun _ ↦ h.optionally (h.collectUntil _) (h.pure _)

theorem clauseTurn (opener : Token) (number : Nat) :
    P (Parameter.clauseTurn opener number) ∧ Advances (Parameter.clauseTurn opener number) := by
  refine ⟨h.bind h.ahead fun tokens ↦ ?_, fun scope tokens ↦ .ahead_bind ?_⟩
  · refine h.ite (h.pure _) (h.optionally (h.fail _ rfl) ?_)
    exact h.bind (h.parameter _) fun _ ↦ h.bind (h.accept _) fun _ ↦ h.ite (h.pure _) (h.pure _)
  · refine .ite (fun _ ↦ .pure id) fun _ ↦ .ite (fun _ ↦ .fail_bind) fun _ ↦ ?_
    exact h.leavesBelow_item (h.parameter _)

theorem parameterClause : P Parameter.readClause := by
  refine h.bind (h.expect _ _) fun opener ↦ h.bind (h.repeatFrom (fun number ↦
    (h.clauseTurn opener number).1) (fun number ↦ (h.clauseTurn opener number).2) 0) fun _ ↦ ?_
  exact h.bind h.ahead fun tokens ↦ h.guarded (h.fail none rfl) (h.bind h.skip fun _ ↦ h.pure _)

/-! ## Members -/

theorem effect : P Method.effect := by
  refine h.bind h.ahead fun tokens ↦ ?_
  cases tokens with
  | nil => exact h.pure _
  | cons token rest =>
    refine h.ite (h.bind h.skip fun _ ↦ ?_) (h.pure _)
    exact h.bind (h.adjoinedGroup _) fun _ ↦ h.pure _

theorem advances_effect : Advances Method.effect := by
  refine fun scope tokens ↦ .ahead_bind ?_
  cases tokens with
  | nil => exact .pure id
  | cons token rest =>
    refine .ite (fun _ ↦ .skip_bind (.of_recedes (h.recedes ?_) (Nat.lt_succ_self _))) fun _ ↦
      .pure id
    exact h.bind (h.adjoinedGroup _) fun _ ↦ h.pure _

theorem methodAfterName (name : String) (line : Nat) (isStatic : Bool) :
    P (Method.readAfterName name line isStatic) := by
  refine h.bind (h.adjoinedGroup _) fun genericClause ↦ h.bind (h.sees _) fun _ ↦
    h.guarded (h.fail none rfl) (h.bind h.parameterClause fun parameters ↦
      h.bind (h.repeated h.effect h.advances_effect) fun effects ↦ h.bind (h.accept _) fun _ ↦
        h.either (h.map h.swiftType) (h.pure _) fun result? ↦ ?_)
  refine h.bind (h.accept _) fun _ ↦ h.either (h.map (h.collectUntil _)) (h.pure _)
    fun whereClause ↦ h.bind (h.sees _) fun _ ↦ h.optionally (h.fail none rfl)
      (h.bind h.ahead fun tokens ↦ h.guarded (h.fail none rfl) ?_)
  dsimp only
  split
  · next hcheck => exact h.refuse (Method.Draft.kind_of_check hcheck)
  · exact h.bind (h.tell _) fun _ ↦ h.pure _

theorem method (isStatic : Bool) : P (Method.read isStatic) ∧ Takes (Method.read isStatic) := by
  refine h.bind_takes ⟨h.expect _ _, takes_expect⟩ fun keyword ↦ h.bind h.ahead fun tokens ↦ ?_
  cases tokens with
  | nil => exact h.fail none rfl
  | cons name rest =>
    refine h.guarded (h.fail none rfl) (h.bind h.skip fun _ ↦ ?_)
    exact h.inMember _ (h.methodAfterName ..)

theorem property (isStatic : Bool) :
    P (Property.read isStatic) ∧ Takes (Property.read isStatic) := by
  refine h.bind_takes ⟨h.expect _ _, takes_expect⟩ fun keyword ↦
    h.bind (h.expectName _) fun name ↦ h.inMember _ ?_
  refine h.bind (h.expect _ _) fun _ ↦ h.bind h.swiftType fun type ↦ h.bind (h.sees _) fun _ ↦ ?_
  refine h.guarded (h.fail none rfl) (h.bind (h.group _) fun inner ↦ ?_)
  exact h.guarded (h.fail none rfl) (h.pure _)

theorem associatedType : P AssociatedType.read ∧ Takes AssociatedType.read := by
  refine h.bind_takes ⟨h.expect _ _, takes_expect⟩ fun _ ↦ h.bind (h.expectName _) fun name ↦
    h.bind (h.accept _) fun _ ↦ h.either (h.separated h.swiftType) (h.pure _) fun constraints ↦ ?_
  refine h.bind (h.accept _) fun _ ↦ h.optionally h.swiftType (h.bind (h.accept _) fun _ ↦ ?_)
  exact h.optionally (h.collectUntil _) (h.pure _)

theorem member (protocol : String) : P (Member.read protocol) := by
  refine h.bind h.leads fun leads ↦ h.bind h.ahead fun tokens ↦ ?_
  cases tokens with
  | nil => exact h.fail none rfl
  | cons token rest =>
    refine h.ite (h.bind (h.method _).1 fun _ ↦ h.pure _) (h.ite
      (h.bind (h.property _).1 fun _ ↦ h.pure _) (h.ite
        (h.bind h.associatedType.1 fun _ ↦ h.pure _) (h.ite ?_ (h.fail none rfl))))
    exact h.bind (h.tell _) fun _ ↦ h.bind h.skip fun _ ↦ h.bind (h.collectUntil _) fun _ ↦ h.pure _

/-- A member is at least its keyword. -/
theorem takes_member (protocol : String) : Takes (Member.read protocol) := by
  intro scope tokens rest member hread
  have hmember : LeavesBelow tokens.length (fun _ ↦ True) (Member.read protocol) scope tokens := by
    refine .bind fun leads mid hleads ↦ .ahead_bind ?_
    have hle := h.recedes h.leads hleads
    cases mid with
    | nil => exact .fail
    | cons token mid =>
      refine .ite (fun _ ↦ ?_) fun _ ↦ .ite (fun _ ↦ ?_) fun _ ↦ .ite (fun _ ↦ ?_) fun _ ↦
        .ite (fun _ ↦ ?_) fun _ ↦ .fail
      · exact .bind_of_takes hle (h.method _).2 fun _ ↦ h.recedes (h.pure _)
      · exact .bind_of_takes hle (h.property _).2 fun _ ↦ h.recedes (h.pure _)
      · exact .bind_of_takes hle h.associatedType.2 fun _ ↦ h.recedes (h.pure _)
      · refine .tell_bind (.skip_bind (.of_recedes (h.recedes ?_) hle))
        exact h.bind (h.collectUntil _) fun _ ↦ h.pure _
  exact hmember hread trivial

/-! ## Protocols -/

theorem entry : P Protocol.readEntry :=
  h.bind (h.accept _) fun _ ↦ h.ite (h.pure _) (h.bind h.swiftType fun _ ↦ h.pure _)

theorem inheritance : P Protocol.readInheritance :=
  h.bind (h.accept _) fun _ ↦ h.ite (h.bind (h.separated h.entry) fun _ ↦ h.pure _) (h.pure _)

theorem bodyTurn (name : String) (line : Nat) :
    P (Protocol.bodyTurn name line) ∧ Advances (Protocol.bodyTurn name line) := by
  refine ⟨h.bind h.ahead fun tokens ↦ h.ite (h.pure _) (h.optionally (h.fail _ rfl) ?_),
    fun scope tokens ↦ .ahead_bind (.ite (fun _ ↦ .pure id) fun _ ↦ .ite (fun _ ↦ .fail_bind)
      fun _ ↦ ?_)⟩
  · exact h.bind (h.accept _) fun _ ↦ h.ite (h.pure _) (h.bind (h.member name) fun _ ↦ h.pure _)
  · refine .accept_ite (Nat.le_refl _) (h.recedes (h.pure _)) ?_
    exact .bind_of_takes (Nat.le_refl _) (h.takes_member name) fun _ ↦ h.recedes (h.pure _)

theorem body (name : String) (line : Nat) : P (Protocol.readBody name line) :=
  h.repeated (h.bodyTurn name line).1 (h.bodyTurn name line).2

theorem declaration (line : Nat) : P (Protocol.readDeclaration line) := by
  refine h.bind h.leads fun leads ↦ h.bind (h.expect _ _) fun _ ↦ h.bind (h.expectName _)
    fun name ↦ h.bind (h.adjoinedGroup _) fun _ ↦ h.bind h.inheritance fun inherited ↦
      h.bind (h.accept _) fun _ ↦ h.optionally (h.collectUntil _) ?_
  exact h.bind (h.expect _ _) fun _ ↦ h.bind (h.body _ _) fun members ↦
    h.bind (h.expect _ _) fun _ ↦ h.bind (h.tell _) fun _ ↦ h.pure _

end Reader.Receding

/-- What is compositional holds of the reader for a protocol. -/
theorem Reader.Compositional.declaration {P : ∀ ⦃α : Type⦄, Reader α → Prop} (h : Compositional P)
    (line : Nat) : P (Protocol.readDeclaration line) :=
  (h.and_recedes.declaration line).1

end TestDouble
