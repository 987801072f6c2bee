import TestDouble.Proofs.Reader.Carries
import TestDouble.Proofs.SwiftType.RoundTrip

/-!
# Types in front of a closing parenthesis

A closing parenthesis is no part of a type that was not opened in it. So a type that is read up to
the end of the tokens is read as well where a closing parenthesis follows, with one exception: to
tell a function type from its parameters alone, all tokens are searched for an arrow as long as
parentheses of an effect are open, and so there must be no arrow in what follows.
-/

namespace TestDouble

open Reader

namespace SwiftType

/-! ## What follows -/

/-- A closing parenthesis, and no arrow there or later. -/
structure Closes (after : List Token) : Prop where
  closer : ∃ token more, after = token :: more ∧ token.kind = .punctuation ∧ token.text = ")"
  no_arrow : ∀ token ∈ after, token.is "->" = false

variable {after tokens : List Token}

namespace Closes

variable (hafter : Closes after)
include hafter

theorem avoids {texts : List String} (htexts : ")" ∉ texts) : Avoids texts after := by
  obtain ⟨token, more, rfl, -, htext⟩ := hafter.closer
  exact .of_cons (htext ▸ htexts)

theorem stands_eq_false {text : String} (htext : text ≠ ")") : stands [text] after = false := by
  have havoids : Avoids [text] after := hafter.avoids (by simpa using htext.symm)
  exact havoids.stands_eq_false List.mem_cons_self

theorem adjoins_append {text : String} (htext : text ≠ ")") (tokens : List Token) :
    adjoins text (tokens ++ after) = adjoins text tokens := by
  cases tokens with
  | nil => exact adjoins_of_not_stands (hafter.stands_eq_false htext)
  | cons => rfl

theorem startsType_eq_false : ∀ token ∈ after.head?, startsType token = false := by
  obtain ⟨token, more, rfl, hkind, htext⟩ := hafter.closer
  rintro _ ⟨⟩
  simp [startsType, Token.is, hkind, htext]

theorem modifies_append {words : List String} (hwords : ")" ∉ words) (tokens : List Token) :
    modifies words (tokens ++ after) = modifies words tokens := by
  obtain ⟨token, more, rfl, hkind, htext⟩ := hafter.closer
  rcases tokens with _ | ⟨word, _ | ⟨next, tokens⟩⟩
  · cases more <;> simp [modifies, htext, hwords]
  · simp [modifies, hafter.startsType_eq_false token rfl]
  · rfl

omit hafter in
/-- No arrow is found where there is none. -/
theorem arrowFrom_eq_false (h : ∀ token ∈ tokens, token.is "->" = false) (afterEffect : Bool)
    (depth : Nat) : arrowFrom afterEffect depth tokens = false := by
  induction tokens generalizing afterEffect depth with
  | nil => rw [arrowFrom]
  | cons token tokens ih =>
    obtain ⟨htoken, htokens⟩ := List.forall_mem_cons.mp h
    cases depth <;> simp [arrowFrom, htoken, ih htokens]

theorem arrowFrom_append (afterEffect : Bool) (depth : Nat) (tokens : List Token) :
    arrowFrom afterEffect depth (tokens ++ after) = arrowFrom afterEffect depth tokens := by
  induction tokens generalizing afterEffect depth with
  | nil => rw [List.nil_append, arrowFrom_eq_false hafter.no_arrow, arrowFrom]
  | cons token tokens ih => cases depth <;> simp [arrowFrom, ih]

theorem arrowAhead_append (tokens : List Token) :
    arrowAhead (tokens ++ after) = arrowAhead tokens :=
  hafter.arrowFrom_append false 0 tokens

/-! ## Pieces that are kept as text -/

theorem adjoinedGroup {bracket : Bracket} :
    Carries after (adjoinedGroup bracket) (adjoinedGroup bracket) tokens := by
  have hopener : bracket.opener ≠ ")" := by cases bracket <;> decide
  refine .ahead_bind (.ite (by rw [hafter.adjoins_append hopener]) (fun hadjoins ↦ ?_)
    fun _ ↦ .pure)
  refine .bind_pure (.group ?_)
  rintro rfl
  cases hadjoins

theorem readAttribute {token : Token} (beforeType : Bool) :
    Carries after (readAttribute beforeType) (readAttribute beforeType) (token :: tokens) :=
  .next?_bind (.ite Iff.rfl (fun _ ↦ .pure) fun _ ↦ .bind_pure hafter.adjoinedGroup)

theorem specifier : Carries after specifier specifier tokens := by
  refine .ahead_bind (.ite ?_ (fun hattribute ↦ ?_) fun _ ↦ ?_)
  · obtain ⟨token, more, rfl, hkind, -⟩ := hafter.closer
    cases tokens with
    | nil => simp [hkind]
    | cons => rfl
  · cases tokens with
    | nil => cases hattribute
    | cons => exact .bind_pure (hafter.readAttribute true)
  · refine .accept_bind (hafter.stands_eq_false (by decide)) (fun _ _ _ ↦ .pure) ?_
    refine .ite Iff.rfl (fun h ↦ absurd h Bool.false_ne_true) fun _ ↦
      .ite (by rw [hafter.modifies_append (by decide)]) (fun hmodifies ↦ ?_) fun _ ↦ .pure
    cases tokens with
    | nil => cases hmodifies
    | cons => exact .next?_bind .pure

theorem lead : Carries after lead lead tokens := by
  refine .ahead_bind (.ite (by rw [hafter.modifies_append (by decide)]) (fun hmodifies ↦ ?_)
    fun _ ↦ .pure)
  cases tokens with
  | nil => cases hmodifies
  | cons => exact .next?_bind .pure

theorem elementLabel : Carries after elementLabel elementLabel tokens := by
  refine .ahead_bind ?_
  obtain ⟨token, more, rfl, hkind, htext⟩ := hafter.closer
  have hcolon : stands [":"] (token :: more) = false := hafter.stands_eq_false (by decide)
  rcases tokens with _ | ⟨first, _ | ⟨second, rest⟩⟩
  · cases more <;> simpa [hkind] using Carries.pure
  · simpa [hkind, Token.is, htext] using Carries.pure
  · refine .ite Iff.rfl (fun _ ↦ .skip_bind (.skip_bind .pure)) fun _ ↦ .ite ?_
      (fun htwo ↦ ?_) fun _ ↦ .pure
    · exact and_congr_right fun _ ↦ and_congr_right fun _ ↦ by
        rw [← stands_append_eq hcolon rest, List.append_eq]
    · cases rest with
      | nil => cases htwo.2.2
      | cons => exact .skip_bind (.skip_bind (.skip_bind .pure))

section Rules

variable {type type' : Reader SwiftType}
  (htype : ∀ tokens, Carries after type type' tokens)
include htype

theorem genericArguments :
    Carries after (genericArguments type) (genericArguments type') tokens := by
  refine .ahead_bind (.ite (by rw [hafter.adjoins_append (by decide)]) (fun hadjoins ↦ ?_)
    fun _ ↦ .pure)
  cases tokens with
  | nil => cases hadjoins
  | cons =>
    refine .skip_bind ((Carries.separated (hafter.stands_eq_false (by decide)) htype).bind
      fun _ _ ↦ ?_)
    exact Carries.expect.bind fun _ _ ↦ .pure

theorem element : Carries after (element type) (element type') tokens :=
  hafter.elementLabel.bind fun _ mid ↦ (htype mid).bind fun _ _ ↦
    .bind_pure (.accept (hafter.stands_eq_false (by decide)))

theorem elementTurn (opener : Token) :
    Carries after (elementTurn type opener) (elementTurn type' opener) tokens := by
  refine .ahead_bind ?_
  cases tokens with
  | nil =>
    intro _ _ result rest hread
    obtain ⟨hcloser, -⟩ | ⟨-, hread⟩ := reads_ite_iff.mp hread
    · cases hcloser
    obtain ⟨-, hread⟩ | ⟨hne, -⟩ := reads_ite_iff.mp hread
    · obtain ⟨_, _, hfail, -⟩ := reads_bind_iff.mp hread
      exact (not_reads_fail hfail).elim
    · exact absurd rfl hne
  | cons token tokens =>
    refine .ite Iff.rfl (fun _ ↦ .pure) fun _ ↦ .ite (by simp) (fun _ ↦ .fail_bind) fun _ ↦ ?_
    have hcomma : stands [","] after = false := hafter.stands_eq_false (by decide)
    exact (hafter.element htype).bind fun _ _ ↦ (Carries.accept hcomma).bind fun _ _ ↦
      .ite Iff.rfl (fun _ ↦ .pure) fun _ ↦ .pure

theorem tuple : Carries after (tuple type) (tuple type') tokens := by
  rw [tuple_eq, tuple_eq]
  exact Carries.expect.bind fun opener _ ↦ (Carries.repeated fun _ ↦
    hafter.elementTurn htype opener).bind fun _ _ ↦ Carries.expect.bind fun _ _ ↦ .pure

theorem collection {token : Token} :
    Carries after (collection type) (collection type') (token :: tokens) := by
  refine .skip_bind ((htype tokens).bind fun _ _ ↦ (Carries.accept (hafter.stands_eq_false
    (by decide))).bind fun _ mid ↦ .ite Iff.rfl (fun _ ↦ ?_) fun _ ↦ ?_)
  · exact (htype mid).bind fun _ _ ↦ Carries.expect.bind fun _ _ ↦ .pure
  · exact Carries.expect.bind fun _ _ ↦ .pure

theorem primary : Carries after (primary type) (primary type') tokens := by
  refine .ahead_bind ?_
  cases tokens with
  | nil => exact .ahead_bind .fail
  | cons token tokens =>
    refine .ite Iff.rfl (fun _ ↦ hafter.tuple htype) fun _ ↦ .ite Iff.rfl
      (fun _ ↦ hafter.collection htype) fun _ ↦ .ite Iff.rfl (fun _ ↦ ?_) fun _ ↦ .ahead_bind .fail
    exact .skip_bind (.bind_pure (hafter.genericArguments htype))

theorem suffix : Carries after (suffix type) (suffix type') tokens := by
  refine .ahead_bind ?_
  obtain ⟨closer, more, rfl, hkind, htext⟩ := hafter.closer
  rcases tokens with _ | ⟨token, rest⟩
  · simpa [Token.is, hkind, htext] using Carries.pure
  · refine .ite Iff.rfl (fun _ ↦ .pure) fun _ ↦ .ite Iff.rfl (fun _ ↦ .skip_bind .pure) fun _ ↦
      .ite Iff.rfl (fun _ ↦ .skip_bind .pure) fun _ ↦ .ite Iff.rfl (fun _ ↦ ?_) fun _ ↦ .pure
    cases rest with
    | nil => simpa [hkind] using Carries.pure
    | cons name rest =>
      refine .ite Iff.rfl (fun _ ↦ .skip_bind (.skip_bind ?_)) fun _ ↦ .pure
      exact .bind_pure (hafter.genericArguments htype)

theorem component : Carries after (component type) (component type') tokens :=
  (hafter.primary htype).bind fun _ _ ↦ .bind_pure (.repeated fun _ ↦ hafter.suffix htype)

omit htype in
theorem functionEffect : Carries after functionEffect functionEffect tokens := by
  refine .accept_bind (hafter.stands_eq_false (by decide)) (fun _ _ _ ↦ .pure) ?_
  refine .accept_bind (hafter.stands_eq_false (by decide)) (fun _ _ _ ↦ ?_) .pure
  exact .bind_pure hafter.adjoinedGroup

theorem function (lead : String) (parameters : Component) :
    Carries after (function type lead parameters) (function type' lead parameters) tokens :=
  (Carries.repeated fun _ ↦ hafter.functionEffect).bind fun _ _ ↦ Carries.expect.bind fun _ mid ↦
    .bind_pure (htype mid)

theorem partTurn : Carries after (partTurn type) (partTurn type') tokens :=
  (Carries.accept (hafter.stands_eq_false (by decide))).bind fun _ _ ↦
    .ite Iff.rfl (fun _ ↦ .bind_pure (hafter.component htype)) fun _ ↦ .pure

theorem bare : Carries after (bare type) (bare type') tokens := by
  rw [bare_eq, bare_eq]
  refine hafter.lead.bind fun word _ ↦ .sees_bind (hafter.stands_eq_false (by decide))
    ((hafter.component htype).bind fun first _ ↦ .ahead_bind (.ite
      (by rw [hafter.arrowAhead_append]) (fun _ ↦ hafter.function htype word first) fun _ ↦
        .sees_bind (hafter.stands_eq_false (by decide)) (.ite Iff.rfl (fun _ ↦ ?_) fun _ ↦
          .ite Iff.rfl (fun _ ↦ .pure) fun _ ↦ .pure)))
  exact .bind_pure (.repeated fun _ ↦ hafter.partTurn htype)

theorem annotated : Carries after (annotated type) (annotated type') tokens :=
  (Carries.repeated fun _ ↦ hafter.specifier).bind fun _ _ ↦ (hafter.bare htype).bind fun _ _ ↦
    .tell_bind .pure

end Rules

theorem readWithin {depth depth' : Nat} (hle : depth ≤ depth') :
    Carries after (readWithin depth) (readWithin depth') tokens := by
  induction depth generalizing depth' tokens with
  | zero => exact fun _ _ _ _ hread ↦ (not_reads_fail (reads_ahead_bind_iff.mp hread)).elim
  | succ depth ih =>
    obtain ⟨more, rfl⟩ := Nat.exists_eq_add_of_le' hle
    exact hafter.annotated fun _ ↦ ih (Nat.le_add_left depth more)

/-- A type is read as well in front of a closing parenthesis. -/
theorem read : Carries after read read tokens := by
  intro _ _ type rest hread
  refine reads_read_iff.mpr (hafter.readWithin ?_ (reads_read_iff.mp hread))
  simp

end Closes

end SwiftType

end TestDouble
