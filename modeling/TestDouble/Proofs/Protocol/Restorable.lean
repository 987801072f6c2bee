import TestDouble.Proofs.Protocol.Condition
import TestDouble.Proofs.Protocol.MethodBody
import TestDouble.Proofs.Protocol.Wording

/-!
# Methods whose parts are recovered

The text of a method is made of the texts of its parts, in the order in which they are read. So a
signature is recovered if its parts are, and they are if the tokens of the method are tame and may
stand side by side.
-/

namespace TestDouble

open Reader Token
open SwiftType (Avoids EndsType Tame)

namespace Method

/-! ## Signatures -/

/-- What may stand behind a signature. -/
structure EndsSignature (after : List Token) : Prop where
  endsType : EndsType after
  avoids : Avoids ("->" :: "(" :: effectWords) after

namespace Draft

/-- The result as a signature says it. -/
def resultText (draft : Draft) : String :=
  (draft.result?.map (" -> " ++ ·.declared)).getD ""

/-- What a signature says between the name and the where clause. -/
def signatureText (draft : Draft) : String :=
  draft.genericClause ++
    (Parameter.clauseText draft.parameters ++ (effectsText draft.effects ++ draft.resultText))

private theorem endsWord_resultText (draft : Draft) {tail : List Char} (htail : EndsWord tail) :
    EndsWord (draft.resultText.toList ++ tail) := by
  rw [resultText]
  cases draft.result? with
  | none => exact htail
  | some type =>
    rw [Option.map_some, Option.getD_some, String.toList_append]
    exact .of_cons (by decide +kernel)

/-- The parts of the signature are recovered. -/
structure Recoverable (draft : Draft) : Prop where
  genericClause : ∃ item, RecoversGroup .angle draft.genericClause item
  parameters : ∀ parameter ∈ draft.parameters, ∃ item, parameter.Recovered item
  effects : ∀ effect ∈ draft.effects, ∃ item, RecoversEffect effect item
  result? : ∀ type ∈ draft.result?, ∃ item,
    Recovers SwiftType.read EndsType type.declared type item

namespace Recoverable

variable {draft : Draft} (h : draft.Recoverable)
include h

theorem exists_recovers_result? :
    ∃ item, Recovers readResult? EndsSignature draft.resultText draft.result? item ∧
      ∀ after, EndsSignature after → Avoids ("(" :: effectWords) (item ++ after) := by
  rcases hresult : draft.result? with _ | type
  · refine ⟨[], ⟨fun _ _ ↦ ?_, fun scope after hafter ↦ ?_, fun _ ↦ .nil⟩,
      fun after hafter ↦ hafter.avoids.mono fun _ ↦ List.mem_cons_of_mem _⟩
    · rw [resultText, hresult]
      exact .nil
    · have hnone : stands ["->"] after = false :=
        hafter.avoids.stands_eq_false List.mem_cons_self
      exact (reads_accept_bind_iff_of_not_stands hnone).mpr .pure
  · obtain ⟨item, htype⟩ := h.result? type hresult
    refine ⟨inLine .operator "->" :: item, ⟨fun tail htail ↦ ?_, fun scope after hafter ↦ ?_,
      fun opened ↦ ?_⟩, fun after _ ↦ .of_cons (by decide)⟩
    · have htext : draft.resultText.toList =
          ' ' :: ("->".toList ++ ' ' :: type.declared.toList) := by
        simp [resultText, hresult]
      have harrow : (Kind.operator, "->") ∈ closedSymbols := by decide
      rw [htext]
      exact .blank (.symbol harrow (.blank (htype.spells tail htail)))
    · refine (reads_accept_bind_iff_of_is rfl).mpr (reads_map_iff.mpr ⟨type, ?_, rfl⟩)
      exact htype.reads scope after hafter.endsType
    · have harrow : Nests (· ≠ .curly) opened [inLine .operator "->"] opened :=
        .of_text (by decide)
      exact harrow.append (htype.nests opened)

theorem endsWord_signatureText (tail : List Char) :
    EndsWord (draft.signatureText.toList ++ tail) := by
  obtain ⟨generic, hgeneric⟩ := h.genericClause
  rw [signatureText, String.toList_append, String.toList_append, List.append_assoc,
    List.append_assoc]
  exact hgeneric.endsWord _ (Parameter.endsWord_clauseText _ _)

/-- The signature is recovered from its text, with labels that are not repeated. -/
theorem exists_recovers (line : Nat) (isStatic : Bool) :
    ∃ tokens, Recovers (readSignature draft.name line isStatic) EndsSignature draft.signatureText
      { draft with
        parameters := draft.parameters.map Parameter.unrepeated
        whereClause := ""
        isStatic
        line? := some line } tokens := by
  obtain ⟨generic, hgeneric⟩ := h.genericClause
  obtain ⟨clause, hclause⟩ := exists_forall₂_of_forall_exists h.parameters
  obtain ⟨effects, heffects⟩ := exists_forall₂_of_forall_exists h.effects
  obtain ⟨result, hresult, havoids⟩ := h.exists_recovers_result?
  have heffectsText (tail : List Char) (htail : EndsWord tail) :
      EndsWord ((effectsText draft.effects ++ draft.resultText).toList ++ tail) := by
    rw [String.toList_append, List.append_assoc]
    exact (spells_effectsText heffects (draft.endsWord_resultText htail)).2
  have hclauseText (tail : List Char) (_ : EndsWord tail) : EndsWord
      ((Parameter.clauseText draft.parameters ++
        (effectsText draft.effects ++ draft.resultText)).toList ++ tail) := by
    rw [String.toList_append, List.append_assoc]
    exact Parameter.endsWord_clauseText _ _
  refine ⟨_, hgeneric.bind (.sees_bind ((Parameter.recovers_readClause hclause).bind
    ((recovers_effects heffects).bind hresult.bind_pure (fun _ ↦ draft.endsWord_resultText)
      havoids) heffectsText fun _ _ ↦ trivial) fun _ ↦ rfl) hclauseText fun _ _ ↦ ?_⟩
  exact .of_cons (by decide)

end Recoverable

end Draft

/-! ## Methods -/

/-- The parts of the method are recovered. -/
structure Restorable (method : Method) : Prop extends Draft.Recoverable method.toDraft where
  name : Nameable method.name
  condition : ∃ item, RecoversCondition method.whereClause item

section Keeps

variable {whole : List Token}
  (hspelled : ∀ token ∈ whole, Spelled token.kind token.text.toList) (hapart : Apart whole)
include hspelled hapart

theorem keeps_readAfterResult {draft : Draft} (scope : Scope) (tokens : List Token) :
    Keeps whole (fun method ↦ draft.Recoverable → Nameable draft.name → method.Restorable)
      (readAfterResult draft) scope tokens := by
  have hmethod {whereClause : String} {method : Method}
      (hcheck : Draft.check { draft with whereClause } = .ok method)
      (hcondition : ∃ item, RecoversCondition whereClause item) (hdraft : draft.Recoverable)
      (hname : Nameable draft.name) : method.Restorable := by
    have htoDraft := Draft.toDraft_eq_of_check hcheck
    refine ⟨?_, ?_, ?_⟩ <;> rw [htoDraft]
    · refine ⟨hdraft.genericClause, hdraft.parameters, hdraft.effects, fun type htype ↦ ?_⟩
      exact hdraft.result? type (Option.filter_eq_some_iff.mp htype).1
    · exact hname
    · exact hcondition
  intro method rest hread
  rcases reads_readAfterResult_cases hread with
    ⟨-, rfl, hclose⟩ | ⟨word, back, clause, rfl, -, hcollect, hclose⟩
  · have hnone := Collectible.nil.recoversCondition (by simp) (by decide)
    exact ⟨[], rfl, fun _ ↦ hmethod (check_of_reads_close hclose) ⟨_, hnone⟩⟩
  · obtain ⟨taken, rfl, htaken, htexts⟩ := exists_collectible_of_reads hcollect
    refine ⟨word :: taken, rfl, fun hpart ↦ hmethod (check_of_reads_close hclose) ?_⟩
    have hpart : taken <:+: whole := (List.suffix_cons word taken).isInfix.trans hpart
    have hcondition := htaken.recoversCondition
      (fun token htoken ↦ hspelled token (hpart.subset htoken)) (hapart.of_isInfix hpart)
    rw [Token.join, htexts]
    exact ⟨_, hcondition⟩

variable (htame : Tame whole)
include htame

omit hapart in
theorem keeps_readResult? (scope : Scope) (tokens : List Token) : Keeps whole
    (fun result? ↦ ∀ type ∈ result?, ∃ item,
      Recovers SwiftType.read EndsType type.declared type item) readResult? scope tokens := by
  refine .past (leavesSuffix_receding.accept _) fun _ mid ↦ .ite (fun _ ↦ .map ?_) fun _ ↦
    .pure nofun
  refine (SwiftType.keeps_read hspelled htame scope mid).mono fun type htype ↦ ?_
  rintro _ ⟨⟩
  exact htype

theorem keeps_readSignature {name : String} {line : Nat} {isStatic : Bool} (scope : Scope)
    (tokens : List Token) :
    Keeps whole Draft.Recoverable (readSignature name line isStatic) scope tokens := by
  refine .bind (keeps_adjoinedGroup hspelled hapart (by decide) scope tokens) fun _ mid ↦
    .sees_bind (.ite (fun _ ↦ ?_) fun _ ↦ .fail_bind)
  refine .bind (Parameter.keeps_readClause hspelled htame scope mid) fun _ mid ↦
    .bind (.repeated (keeps_effect hspelled hapart)) fun _ mid ↦
      .bind (keeps_readResult? hspelled htame scope mid) fun _ mid ↦ .pure ?_
  exact fun hresult heffects hparameters hgeneric ↦ ⟨hgeneric, hparameters, heffects, hresult⟩

theorem keeps_read {isStatic : Bool} (scope : Scope) (tokens : List Token) :
    Keeps whole Restorable (read isStatic) scope tokens := by
  refine .past (leavesSuffix_receding.expect _ _) fun _ tokens ↦ .ahead_bind ?_
  rcases tokens with _ | ⟨name, tokens⟩
  · exact .fail
  refine .ite (fun hname ↦ .skip_bind (.inMember ?_)) fun _ ↦ .fail_bind
  dsimp only
  rw [readAfterName_eq_bind_readAfterResult]
  refine .bind ((keeps_readSignature hspelled hapart htame _ _).and_of_reads fun _ _ ↦
    name_eq_of_reads_readSignature) fun draft mid ↦ ?_
  refine (keeps_readAfterResult hspelled hapart _ _).mono fun method hmethod hdraft hmem ↦ ?_
  refine hmethod hdraft.2 ?_
  rw [hdraft.1]
  exact .of_isName (hspelled name hmem) hname

end Keeps

end Method

end TestDouble
