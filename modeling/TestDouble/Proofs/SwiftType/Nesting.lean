import TestDouble.Proofs.Reader.Nesting
import TestDouble.SwiftType.Read

/-!
# Brackets in types

A type is nested: each of its brackets is taken together with the one that closes it, either as a
group or by the rule that took the opener.
-/

namespace TestDouble.Reader.Shifts

open TestDouble.Bracket Token

variable {loose : Bracket → Prop} {opened opened' : List Bracket} {scope : Scope}
  {tokens : List Token} {token : Token}

/-! ## Pieces that are kept as text -/

theorem adjoinedGroup {bracket : Bracket} :
    Shifts loose opened opened (adjoinedGroup bracket) scope tokens := by
  refine .ahead_bind (.ite (fun hadjoins ↦ .bind (.group bracket ?_) fun _ _ ↦ .pure) fun _ ↦ .pure)
  cases tokens with
  | nil => cases hadjoins
  | cons token tokens => simp_all [adjoins, stands]

theorem readAttribute {beforeType : Bool} (hattribute : token.kind = .attribute) :
    Shifts loose opened opened (readAttribute beforeType) scope (token :: tokens) := by
  refine .next?_bind (fun hspelled ↦ .of_kind hspelled (by simp [hattribute])) ?_
  exact .ite (fun _ ↦ .pure) fun _ ↦ .bind .adjoinedGroup fun _ _ ↦ .pure

theorem next?_modifying_bind {α : Type} {words : List String} {next : Option Token → Reader α}
    (hmodifies : SwiftType.modifies words tokens = true) (hwords : ∀ word ∈ words, word ∉ texts)
    (h : ∀ token tokens, Shifts loose opened opened' (next token) scope tokens) :
    Shifts loose opened opened' (next? >>= next) scope tokens := by
  rcases tokens with _ | ⟨word, _ | ⟨follower, tokens⟩⟩
  · cases hmodifies
  · cases hmodifies
  · rw [SwiftType.modifies, Bool.and_eq_true, decide_eq_true_eq] at hmodifies
    exact .next?_bind (fun _ ↦ .of_text (hwords _ hmodifies.1)) (h _ _)

theorem specifier : Shifts loose opened opened SwiftType.specifier scope tokens := by
  refine .ahead_bind (.ite (fun hattribute ↦ ?_) fun _ ↦ ?_)
  · cases tokens with
    | nil => cases hattribute
    | cons token tokens =>
      exact .bind (.readAttribute (by simpa using hattribute)) fun _ _ ↦ .pure
  · refine .accept_bind (by decide) (fun _ ↦ .pure) (.ite (fun h ↦ nomatch h) fun _ ↦ ?_)
    refine .ite (fun hmodifies ↦ ?_) fun _ ↦ .pure
    exact .next?_modifying_bind hmodifies (by decide) fun _ _ ↦ .pure

section Rules

variable {type : Reader SwiftType}
  (htype : ∀ opened tokens, Shifts loose opened opened type scope tokens)
include htype

theorem genericArguments :
    Shifts loose opened opened (SwiftType.genericArguments type) scope tokens := by
  refine .ahead_bind (.ite (fun hadjoins ↦ ?_) fun _ ↦ .pure)
  cases tokens with
  | nil => cases hadjoins
  | cons token tokens =>
    have his : token.is "<" = true := by simp_all [adjoins]
    refine .skip_bind (fun _ ↦ .of_is his (by decide)) (.bind (.separated (htype opened)) ?_)
    exact fun _ _ ↦ .bind (.expect_mark (by decide)) fun _ _ ↦ .pure

omit htype in
theorem elementLabel : Shifts loose opened opened SwiftType.elementLabel scope tokens := by
  refine .ahead_bind ?_
  rcases tokens with _ | ⟨first, _ | ⟨second, rest⟩⟩
  · exact .pure
  · exact .pure
  have hname {token : Token} (hkind : token.kind = .identifier)
      (hspelled : Spelled token.kind token.text.toList) : Nests loose opened [token] opened :=
    .of_kind hspelled (by simp [hkind])
  refine .ite (fun h ↦ ?_) fun _ ↦ .ite (fun h ↦ ?_) fun _ ↦ .pure
  · exact .skip_bind (hname h.1) (.skip_bind (fun _ ↦ .of_is h.2 (by decide)) .pure)
  · obtain ⟨colon, rest, rfl, hcolon⟩ := stands_singleton_eq_true_iff.mp h.2.2
    refine .skip_bind (hname h.1) (.skip_bind (hname h.2.1) ?_)
    exact .skip_bind (fun _ ↦ .of_is hcolon (by decide)) .pure

theorem element : Shifts loose opened opened (SwiftType.element type) scope tokens :=
  .bind .elementLabel fun _ _ ↦ .bind (htype _ _) fun _ _ ↦
    .bind (.accept (by decide)) fun _ _ ↦ .pure

theorem tuple : Shifts loose opened opened (SwiftType.tuple type) scope tokens := by
  refine .bind (.expect_opener .round (by decide)) fun opener tokens ↦
    .bind (.repeated fun tokens ↦ ?_) fun _ _ ↦
      .bind (.expect_closer .round (by decide)) fun _ _ ↦ .pure
  refine .ahead_bind (.ite (fun _ ↦ .pure) fun _ ↦ .ite (fun _ ↦ .fail_bind) fun _ ↦ ?_)
  exact .bind (.element htype) fun _ _ ↦ .bind (.accept (by decide)) fun _ _ ↦
    .ite (fun _ ↦ .pure) fun _ ↦ .pure

theorem collection (his : token.is "[" = true) :
    Shifts loose opened opened (SwiftType.collection type) scope (token :: tokens) := by
  have hcloser {α : Type} {context : String} {next : Token → Reader α} {tokens : List Token}
      (h : ∀ closer tokens, Shifts loose opened opened (next closer) scope tokens) :
      Shifts loose (.square :: opened) opened (Reader.expect "]" context >>= next) scope tokens :=
    .bind (.expect_closer .square (by decide)) h
  refine .skip_bind (fun hspelled ↦ .of_opener .square hspelled his (by decide)) ?_
  refine .bind (htype _ _) fun _ _ ↦ .bind (.accept (by decide)) fun _ _ ↦
    .ite (fun _ ↦ .bind (htype _ _) fun _ _ ↦ hcloser fun _ _ ↦ .pure) fun _ ↦
      hcloser fun _ _ ↦ .pure

omit htype in
theorem missing {α : Type} :
    Shifts loose opened opened' (SwiftType.missing : Reader α) scope tokens :=
  .ahead_bind .fail

theorem primary : Shifts loose opened opened (SwiftType.primary type) scope tokens := by
  refine .ahead_bind ?_
  rcases tokens with _ | ⟨token, tokens⟩
  · exact .missing
  refine .ite (fun _ ↦ .tuple htype) fun _ ↦ .ite (.collection htype) fun _ ↦
    .ite (fun hkind ↦ ?_) fun _ ↦ .missing
  refine .skip_bind (fun hspelled ↦ .of_kind hspelled (by simp [hkind])) ?_
  exact .bind (.genericArguments htype) fun _ _ ↦ .pure

theorem suffix : Shifts loose opened opened (SwiftType.suffix type) scope tokens := by
  refine .ahead_bind ?_
  rcases tokens with _ | ⟨token, tokens⟩
  · exact .pure
  have hoperator {text : String} (h : token.kind = .operator ∧ token.text = text)
      (hspelled : Spelled token.kind token.text.toList) : Nests loose opened [token] opened :=
    .of_kind hspelled (by simp [h.1])
  refine .ite (fun _ ↦ .pure) fun _ ↦ .ite (fun h ↦ .skip_bind (hoperator h) .pure) fun _ ↦
    .ite (fun h ↦ .skip_bind (hoperator h) .pure) fun _ ↦ .ite (fun his ↦ ?_) fun _ ↦ .pure
  rcases tokens with _ | ⟨name, tokens⟩
  · exact .pure
  refine .ite (fun hkind ↦ ?_) fun _ ↦ .pure
  refine .skip_bind (fun _ ↦ .of_is his (by decide)) ?_
  refine .skip_bind (fun hspelled ↦ .of_kind hspelled (by simp [hkind])) ?_
  exact .bind (.genericArguments htype) fun _ _ ↦ .pure

theorem component : Shifts loose opened opened (SwiftType.component type) scope tokens :=
  .bind (.primary htype) fun _ _ ↦ .bind (.repeated fun _ ↦ .suffix htype) fun _ _ ↦ .pure

/-! ## Function types -/

omit htype in
theorem functionEffect : Shifts loose opened opened SwiftType.functionEffect scope tokens :=
  .bind (.accept (by decide)) fun _ _ ↦ .ite (fun _ ↦ .pure) fun _ ↦
    .bind (.accept (by decide)) fun _ _ ↦
      .ite (fun _ ↦ .bind .adjoinedGroup fun _ _ ↦ .pure) fun _ ↦ .pure

theorem function {lead : String} {parameters : SwiftType.Component} :
    Shifts loose opened opened (SwiftType.function type lead parameters) scope tokens :=
  .bind (.repeated fun _ ↦ .functionEffect) fun _ _ ↦ .bind (.expect_mark (by decide)) fun _ _ ↦
    .bind (htype _ _) fun _ _ ↦ .pure

omit htype in
theorem lead : Shifts loose opened opened SwiftType.lead scope tokens :=
  .ahead_bind (.ite (fun h ↦ .next?_modifying_bind h (by decide) fun _ _ ↦ .pure) fun _ ↦ .pure)

theorem bare : Shifts loose opened opened (SwiftType.bare type) scope tokens := by
  refine .bind .lead fun _ _ ↦ .sees_bind (.bind (.component htype) fun _ _ ↦ .ahead_bind ?_)
  refine .ite (fun _ ↦ .function htype) fun _ ↦ .sees_bind (.ite (fun _ ↦ ?_) fun _ ↦
    .ite (fun _ ↦ .pure) fun _ ↦ .pure)
  refine .bind (.repeated fun _ ↦ ?_) fun _ _ ↦ .pure
  exact .bind (.accept (by decide)) fun _ _ ↦
    .ite (fun _ ↦ .bind (.component htype) fun _ _ ↦ .pure) fun _ ↦ .pure

theorem annotated : Shifts loose opened opened (SwiftType.annotated type) scope tokens :=
  .bind (.repeated fun _ ↦ .specifier) fun _ _ ↦ .bind (.bare htype) fun _ _ ↦ .tell_bind .pure

end Rules

theorem swiftType : Shifts loose opened opened SwiftType.read scope tokens := by
  have hwithin (depth : Nat) (opened : List Bracket) (tokens : List Token) :
      Shifts loose opened opened (SwiftType.readWithin depth) scope tokens := by
    induction depth generalizing opened tokens with
    | zero => exact .missing
    | succ depth ih => exact .annotated ih
  exact fun hspelled _ _ hread ↦
    hwithin tokens.length opened tokens hspelled ⟨hread.result_eq, hread.rest_eq⟩

end TestDouble.Reader.Shifts
