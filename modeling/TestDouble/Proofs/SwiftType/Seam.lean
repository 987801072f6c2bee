import TestDouble.Proofs.Reader.Seam
import TestDouble.Proofs.SwiftType.RoundTrip

/-!
# Types across a seam

A type ends where nothing goes on with it. Whatever a member begins with goes on with no type, so a
type at the end of a body is read as the same type where the body goes on. There is one exception: a
word such as `some` is a type by itself in front of the brace, and the beginning of a type in front
of a name.
-/

namespace TestDouble

open Reader Token

variable {seam : Seam} {scope : Scope} {tokens : List Token}

/-! ## Pieces that are kept as text -/

theorem Seam.adjoins_extend {text : String} (htext : text ∈ sought) (tokens : List Token) :
    adjoins text (seam.extend tokens) = adjoins text tokens := by
  rcases seam.eq_brace_or_head?_extend tokens with rfl | hhead
  · rw [extend_brace, adjoins, adjoins]
    simp only [List.head?_cons, Option.any_some, brace_is_eq_false htext, next_is_eq_false htext,
      Bool.false_and]
  · rw [adjoins, adjoins, hhead]

private theorem stands_of_adjoins {text : String} (h : adjoins text tokens = true) :
    stands [text] tokens = true := by
  by_contra hnot
  rw [adjoins_of_not_stands (by simpa using hnot)] at h
  cases h

theorem holds_adjoinedGroup (bracket : Bracket) (hopener : bracket.opener ∈ sought) :
    seam.Holds Seam.anywhere (adjoinedGroup bracket) (adjoinedGroup bracket) scope tokens := by
  refine .ahead_bind (.ite (by rw [Seam.adjoins_extend hopener]) (fun hadjoins ↦ ?_) fun _ ↦ .pure)
  exact .bind_pure (.group (stands_of_adjoins hadjoins))

theorem holds_readAttribute {token : Token} (hattribute : token.kind = .attribute)
    (beforeType : Bool) :
    seam.Holds Seam.anywhere (readAttribute beforeType) (readAttribute beforeType) scope
      (token :: tokens) := by
  have hlevel (hspelled : Spelled token.kind token.text.toList) : token.is "\x7b" = false :=
    not_brace_of_kind hspelled (by rw [hattribute]; decide)
  refine .next?_bind hlevel (.ite Iff.rfl (fun _ ↦ .pure) fun _ ↦ ?_)
  exact .bind_pure (holds_adjoinedGroup .round (by decide))

namespace SwiftType

/-- Where more than the brace is left, there are two tokens at least. -/
theorem one_lt_length (hbrace : [seam.brace] <:+ tokens) (hne : tokens ≠ [seam.brace]) :
    1 < tokens.length := by
  obtain ⟨front, rfl⟩ := hbrace
  cases front with
  | nil => exact absurd rfl hne
  | cons => simp

/-! ## In front of a type -/

/-- If a type can begin in place of the brace, a word in front of the brace is none of the given
ones. -/
def Settled (seam : Seam) (words : List String) (tokens : List Token) : Prop :=
  startsType seam.next = true → ∀ word, tokens = [word, seam.brace] → word.text ∉ words

theorem not_settled_iff {words : List String} : ¬ Settled seam words tokens ↔
    startsType seam.next = true ∧ ∃ word, tokens = [word, seam.brace] ∧ word.text ∈ words := by
  simp only [Settled, Classical.not_imp, not_forall, not_not]

@[simp] theorem startsType_brace : startsType seam.brace = false := by
  have hround : seam.brace.is "(" = false := Seam.brace_is_eq_false (by decide)
  have hsquare : seam.brace.is "[" = false := Seam.brace_is_eq_false (by decide)
  simp [startsType, seam.brace_kind, hround, hsquare]

theorem modifies_extend {words : List String} (hwords : ∀ word ∈ words, word ∈ sought)
    (h : Settled seam words tokens) :
    modifies words (seam.extend tokens) = modifies words tokens := by
  rcases tokens with _ | ⟨word, _ | ⟨second, tokens⟩⟩
  · rfl
  · by_cases hbrace : [word] = [seam.brace]
    · have hnext : seam.next.text ∉ words := fun hmem ↦ seam.next_text (hwords _ hmem)
      rw [hbrace, Seam.extend_brace]
      cases seam.more <;> simp [modifies, hnext]
    · rw [Seam.extend_cons hbrace]
      rfl
  · rw [Seam.extend_cons (by simp)]
    by_cases hbrace : second :: tokens = [seam.brace]
    · rw [hbrace, Seam.extend_brace, modifies, modifies, startsType_brace, Bool.and_false]
      by_cases hstarts : startsType seam.next = true
      · have hword : word.text ∉ words := h hstarts word (by rw [hbrace])
        simp [hword]
      · simp [hstarts]
    · rw [Seam.extend_cons hbrace]
      rfl

private theorem stopsSpecifiers_of_not_settled
    (hspelled : ∀ token ∈ tokens, Spelled token.kind token.text.toList)
    (h : tokens = [seam.brace] ∨ ¬ Settled seam ownershipSpecifiers tokens) :
    StopsSpecifiers tokens := by
  rcases h with rfl | h
  · have hinout : seam.brace.is "inout" = false := Seam.brace_is_eq_false (by decide)
    refine ⟨?_, by simp [stands, hinout], rfl⟩
    rintro _ ⟨⟩
    rw [seam.brace_kind]
    decide
  · obtain ⟨-, word, rfl, hword⟩ := not_settled_iff.mp h
    have hall : ∀ text ∈ ownershipSpecifiers, Spelled .identifier text.toList ∧ text ≠ "inout" := by
      decide +kernel
    obtain ⟨hidentifier, hinout⟩ := hall _ hword
    have hkind : word.kind = .identifier := (hspelled word List.mem_cons_self).kind_eq hidentifier
    refine ⟨?_, by simp [stands, Token.is, hinout], ?_⟩
    · rintro _ ⟨⟩
      rw [hkind]
      decide
    · simp [modifies]

/-- Where a specifier may be followed by the brace, it is the type itself. -/
theorem holds_specifier : seam.Holds
    (fun _ rest ↦ rest ≠ [seam.brace] ∧ Settled seam ownershipSpecifiers rest) specifier specifier
    scope tokens := by
  refine .of_not (p := tokens = [seam.brace] ∨ ¬ Settled seam ownershipSpecifiers tokens) ?_ ?_
  · rw [not_or, not_not]
    rintro ⟨hbrace, hsettled⟩
    have hhead := (seam.eq_brace_or_head?_extend tokens).resolve_left hbrace
    refine .ahead_bind (.ite (by rw [hhead]) (fun hattribute ↦ ?_) fun _ ↦ ?_)
    · obtain ⟨token, htoken, hkind⟩ := (Option.any_eq_true _ _).mp hattribute
      obtain ⟨back, rfl⟩ := List.head?_eq_some_iff.mp htoken
      exact .bind_pure ((holds_readAttribute (of_decide_eq_true hkind) true).mono
        fun _ _ _ _ ↦ trivial)
    · refine .accept_bind (by decide) (by decide) (fun _ _ _ _ ↦ .pure) fun _ ↦ ?_
      refine .ite Iff.rfl (fun h ↦ absurd h Bool.false_ne_true) fun _ ↦ ?_
      have hwords : ∀ word ∈ ownershipSpecifiers, word ∈ sought ∧ word ≠ "\x7b" := by decide
      refine .ite (by rw [modifies_extend (fun word hword ↦ (hwords word hword).1) hsettled])
        (fun hmodifies ↦ ?_) fun _ ↦ .pure
      rcases tokens with _ | ⟨word, _ | ⟨second, tokens⟩⟩
      · cases hmodifies
      · cases hmodifies
      · rw [modifies, Bool.and_eq_true, decide_eq_true_eq] at hmodifies
        have hlevel : word.is "\x7b" = false := by
          simp [Token.is, (hwords _ hmodifies.1).2]
        exact .next?_bind (fun _ ↦ hlevel) .pure
  · intro hnot hspelled turn rest hread
    obtain ⟨rfl, rfl⟩ :=
      ((stopsSpecifiers_of_not_settled hspelled hnot).reads scope).value_unique hread
    refine ⟨rfl, fun hfollow ↦ ?_⟩
    exact hnot.elim hfollow.1 fun h ↦ h hfollow.2

/-! ## Simple types -/

/-- What is looked for behind a type and across line breaks. -/
def continuations : List String :=
  [".", "async", "throws"]

theorem avoids_of_is {token : Token} {text : String} (his : token.is text = true)
    (htext : text ∉ continuations) : Avoids continuations (token :: tokens) :=
  .of_cons (by rwa [text_eq_of_is his])

theorem avoids_of_reads_expect {α : Type} {text context : String} {next : Token → Reader α} {a : α}
    {rest : List Token} (h : Reads (expect text context >>= next) scope tokens a rest)
    (htext : text ∉ continuations) : Avoids continuations tokens := by
  obtain ⟨token, mid, hexpect, -⟩ := reads_bind_iff.mp h
  obtain ⟨rfl, his⟩ := reads_expect_iff.mp hexpect
  exact avoids_of_is his htext

private theorem avoids_of_reads_accept {text : String} {accepted : Bool} {rest : List Token}
    (h : Reads (accept text) scope tokens accepted rest) (htext : text ∉ continuations)
    (hrest : Avoids continuations rest) : Avoids continuations tokens := by
  rcases reads_accept_iff.mp h with ⟨-, token, rfl, his⟩ | ⟨-, -, rfl⟩
  · exact avoids_of_is his htext
  · exact hrest

private theorem length_le_of_reads_accept {text : String} {accepted : Bool} {rest : List Token}
    (h : Reads (accept text) scope tokens accepted rest) : rest.length ≤ tokens.length := by
  rcases reads_accept_iff.mp h with ⟨-, token, rfl, -⟩ | ⟨-, -, rfl⟩
  · exact Nat.le_succ _
  · exact Nat.le_refl _

private theorem not_brace_of_identifier {token : Token} (h : token.kind = .identifier)
    (hspelled : Spelled token.kind token.text.toList) : token.is "\x7b" = false :=
  not_brace_of_kind hspelled (by rw [h]; decide)

section Rules

variable {type type' : Reader SwiftType}
  (htype : ∀ scope tokens,
    seam.Holds (fun _ ↦ Avoids continuations) type type' scope tokens)
include htype

theorem holds_genericArguments :
    seam.Holds Seam.anywhere (genericArguments type) (genericArguments type') scope tokens := by
  refine .ahead_bind (.ite (by rw [Seam.adjoins_extend (by decide)]) (fun hadjoins ↦ ?_)
    fun _ ↦ .pure)
  obtain ⟨token, back, rfl, his⟩ := stands_singleton_eq_true_iff.mp (stands_of_adjoins hadjoins)
  refine .skip_bind (fun _ ↦ is_eq_false_of_is his (by decide)) ?_
  refine .bind_of (.separated (htype scope) ?_) (fun arguments mid ↦ ?_) ?_
  · exact fun token back his ↦ avoids_of_is his (by decide)
  · exact .bind (.expect (by decide)) fun _ _ ↦ .pure
  · intro arguments mid text rest _ hread _ _ _
    exact avoids_of_reads_expect hread (by decide)

omit htype in
/-- The label of an element is followed by a type and the end of the tuple. -/
theorem holds_elementLabel : seam.Holds (fun _ rest ↦ 2 < rest.length) elementLabel elementLabel
    scope tokens := by
  refine .ahead_bind ?_
  rcases tokens with _ | ⟨first, _ | ⟨second, rest⟩⟩
  · exact .pure
  · refine .of_not (p := True) (fun h ↦ absurd trivial h) fun _ _ text rest hread ↦ ?_
    obtain ⟨rfl, rfl⟩ := reads_pure_iff.mp hread
    exact ⟨rfl, by simp⟩
  refine .of_not (p := second :: rest = [seam.brace]) (fun hbrace ↦ ?_) fun hbrace _ ↦ ?_
  · rw [Seam.extend_cons (by simp), Seam.extend_cons hbrace]
    refine .ite Iff.rfl (fun ⟨hfirst, hcolon⟩ ↦ ?_) fun _ ↦
      .ite ?_ (fun ⟨hfirst, hsecond, hcolon⟩ ↦ ?_) fun _ ↦ .pure
    · exact .skip_bind (not_brace_of_identifier hfirst)
        (.skip_bind (fun _ ↦ is_eq_false_of_is hcolon (by decide)) .pure)
    · rw [Seam.stands_extend (by decide)]
    · obtain ⟨colon, back, rfl, his⟩ := stands_singleton_eq_true_iff.mp hcolon
      refine .skip_bind (not_brace_of_identifier hfirst) ?_
      exact .skip_bind (not_brace_of_identifier hsecond)
        (.skip_bind (fun _ ↦ is_eq_false_of_is his (by decide)) .pure)
  · obtain ⟨rfl, rfl⟩ := List.cons.inj hbrace
    have hcolon : seam.brace.is ":" = false := Seam.brace_is_eq_false (by decide)
    intro text rest hread
    simp only [hcolon, seam.brace_kind, Bool.false_eq_true, and_false, reduceCtorEq, false_and,
      if_false] at hread
    obtain ⟨-, rfl⟩ := reads_pure_iff.mp hread
    exact ⟨rfl, by simp⟩

variable (hshorter : ∀ {scope tokens a rest}, Reads type scope tokens a rest →
  rest.length < tokens.length)

include hshorter in
theorem holds_element : seam.Holds
    (fun _ rest ↦ Avoids continuations rest ∧ rest ≠ [seam.brace]) (element type) (element type')
    scope tokens := by
  refine .bind_of holds_elementLabel (fun label mid ↦ .bind_of (htype scope mid)
    (fun type mid ↦ .bind_pure ((Seam.Holds.accept (by decide) (by decide)).mono
      fun _ _ _ _ ↦ trivial)) ?_) ?_
  · intro type mid element rest _ hread _ _ hrest
    obtain ⟨isVariadic, back, haccept, hpure⟩ := reads_bind_iff.mp hread
    obtain ⟨-, rfl⟩ := reads_pure_iff.mp hpure
    exact avoids_of_reads_accept haccept (by decide) hrest.1
  · intro label mid element rest _ hread _ hbrace hrest
    obtain ⟨type, back, htype, hread⟩ := reads_bind_iff.mp hread
    obtain ⟨isVariadic, back', haccept, hpure⟩ := reads_bind_iff.mp hread
    obtain ⟨-, rfl⟩ := reads_pure_iff.mp hpure
    have hlonger := one_lt_length hbrace hrest.2
    have hle := length_le_of_reads_accept haccept
    have hlt := hshorter htype
    omega

include hshorter in
/-- The elements of a tuple are followed by its parenthesis. -/
theorem holds_elementTurn (opener : Token) : seam.Holds
    (fun result rest ↦ ∀ element, result = .last element → stands [")"] rest = true)
    (elementTurn type opener) (elementTurn type' opener) scope tokens := by
  refine .ahead_bind (.ite (by rw [Seam.stands_extend (by decide)]) (fun _ ↦ .pure) fun _ ↦ ?_)
  have helement : seam.Holds
      (fun result rest ↦ ∀ element, result = .last element → stands [")"] rest = true)
      (do let element ← element type
          if ← accept "," then return Turn.more element else return Turn.last element)
      (do let element ← element type'
          if ← accept "," then return Turn.more element else return Turn.last element)
      scope tokens := by
    refine .bind_of (holds_element htype hshorter) (fun element mid ↦ .accept_bind (by decide)
      (by decide) (fun _ _ _ _ ↦ .pure) fun _ ↦ .pure) ?_
    intro element mid result rest _ hread hsuffix hbrace hrest
    obtain ⟨accepted, back, haccept, hread⟩ := reads_bind_iff.mp hread
    rcases reads_accept_iff.mp haccept with ⟨rfl, token, rfl, his⟩ | ⟨rfl, -, rfl⟩
    · exact ⟨avoids_of_is his (by decide), Seam.ne_brace_of_is (by decide) his⟩
    · obtain ⟨rfl, rfl⟩ := reads_pure_iff.mp hread
      obtain ⟨closer, back, rfl, his⟩ := stands_singleton_eq_true_iff.mp (hrest _ rfl)
      exact ⟨avoids_of_is his (by decide), Seam.ne_brace_of_is (by decide) his⟩
  exact .ite (by rw [Seam.isEmpty_extend]) (fun _ ↦ .fail_bind) fun _ ↦ helement

include hshorter in
theorem holds_tuple :
    seam.Holds Seam.anywhere (tuple type) (tuple type') scope tokens := by
  rw [tuple_eq, tuple_eq]
  have helements (opener : Token) (mid : List Token) : seam.Holds
      (fun _ rest ↦ stands [")"] rest = true) (repeated (elementTurn type opener))
      (repeated (elementTurn type' opener)) scope mid := by
    refine .repeated (fun _ ↦ holds_elementTurn htype hshorter opener) ?_ ?_
    · exact fun _ _ _ hrest _ _ ↦ hrest
    · rintro _ _ _ _ _ _ _ _ _ _ ⟨⟩
  refine .bind (.expect (by decide)) fun opener mid ↦ .bind_of (helements opener mid)
    (fun elements mid ↦ ?_) ?_
  · exact .bind (.expect (by decide)) fun _ _ ↦ .pure
  · intro elements mid primary rest _ hread _ _ _
    obtain ⟨closer, back, hcloser, -⟩ := reads_bind_iff.mp hread
    obtain ⟨rfl, his⟩ := reads_expect_iff.mp hcloser
    simpa

theorem holds_collection {token : Token} (hlevel : token.is "\x7b" = false) :
    seam.Holds Seam.anywhere (collection type) (collection type') scope (token :: tokens) := by
  refine .skip_bind (fun _ ↦ hlevel) (.bind_of (htype scope tokens) (fun first mid ↦ ?_) ?_)
  · have hcloser {close : Token → Primary} {context : String} {mid : List Token} : seam.Holds
        Seam.anywhere (expect "]" context >>= fun token ↦ pure (close token))
        (expect "]" context >>= fun token ↦ pure (close token)) scope mid :=
      .bind (.expect (by decide)) fun _ _ ↦ .pure
    refine .bind (.accept (by decide) (by decide)) fun accepted mid ↦ .ite Iff.rfl (fun _ ↦ ?_)
      fun _ ↦ hcloser
    refine .bind_of (htype scope mid) (fun value mid ↦ hcloser) ?_
    intro value mid primary rest _ hread _ _ _
    exact avoids_of_reads_expect hread (by decide)
  · intro first mid primary rest _ hread _ _ _
    obtain ⟨accepted, back, haccept, hread⟩ := reads_bind_iff.mp hread
    rcases reads_accept_iff.mp haccept with ⟨-, token, rfl, his⟩ | ⟨rfl, -, rfl⟩
    · exact avoids_of_is his (by decide)
    · exact avoids_of_reads_expect hread (by decide)

include hshorter in
theorem holds_primary :
    seam.Holds Seam.anywhere (primary type) (primary type') scope tokens := by
  refine .ahead_bind ?_
  rcases tokens with _ | ⟨token, tokens⟩
  · exact .ahead_bind .fail
  by_cases hbrace : token :: tokens = [seam.brace]
  · obtain ⟨rfl, rfl⟩ := List.cons.inj hbrace
    have hround : seam.brace.is "(" = false := Seam.brace_is_eq_false (by decide)
    have hsquare : seam.brace.is "[" = false := Seam.brace_is_eq_false (by decide)
    refine .of_not_reads fun read rest hread ↦ ?_
    simp only [List.head?_cons, hround, hsquare, seam.brace_kind, Bool.false_eq_true, reduceCtorEq,
      if_false] at hread
    exact not_reads_fail (reads_ahead_bind_iff.mp hread)
  rw [Seam.extend_cons hbrace]
  refine .ite Iff.rfl (fun hround ↦ ?_) fun _ ↦ .ite Iff.rfl (fun hsquare ↦ ?_) fun _ ↦
    .ite Iff.rfl (fun hname ↦ ?_) fun _ ↦ ?_
  · exact holds_tuple htype hshorter
  · exact holds_collection htype (is_eq_false_of_is hsquare (by decide))
  · exact .skip_bind (not_brace_of_identifier hname) (.bind_pure (holds_genericArguments htype))
  · exact .ahead_bind .fail

/-- A nested type is read behind a dot, if it is a name. -/
theorem holds_suffix :
    seam.Holds (fun result rest ↦ result = .stop → stands ["."] rest = false) (suffix type)
      (suffix type') scope tokens := by
  refine .ahead_bind ?_
  rcases tokens with _ | ⟨token, tokens⟩
  · exact .pure
  -- What stands in place of the brace begins no suffix either.
  by_cases hbrace : token :: tokens = [seam.brace]
  · obtain ⟨hoptional, hunwrapped, hdot⟩ : seam.next.text ≠ "?" ∧ seam.next.text ≠ "!" ∧
        seam.next.is "." = false :=
      ⟨fun htext ↦ seam.next_text (htext ▸ by decide),
        fun htext ↦ seam.next_text (htext ▸ by decide), Seam.next_is_eq_false (by decide)⟩
    rw [hbrace, Seam.extend_brace]
    simp only [seam.brace_freshLine, if_true, hoptional, hunwrapped, hdot, and_false, if_false,
      Bool.false_eq_true, ite_self]
    exact .pure
  rw [Seam.extend_cons hbrace]
  have hmarker (token : Token) (hmarker : token.text ≠ "\x7b") : token.is "\x7b" = false := by
    simp [Token.is, hmarker]
  refine .ite Iff.rfl (fun _ ↦ .pure) fun _ ↦ .ite Iff.rfl (fun hoptional ↦ ?_) fun _ ↦
    .ite Iff.rfl (fun hunwrapped ↦ ?_) fun _ ↦ .ite Iff.rfl (fun hdot ↦ ?_) fun _ ↦ .pure
  · exact .skip_bind (fun _ ↦ hmarker token (by rw [hoptional.2]; decide)) .pure
  · exact .skip_bind (fun _ ↦ hmarker token (by rw [hunwrapped.2]; decide)) .pure
  · rcases tokens with _ | ⟨name, tokens⟩
    · exact .pure
    by_cases hname : name.kind = .identifier
    · have hne : name :: tokens ≠ [seam.brace] := by
        intro heq
        rw [(List.cons.inj heq).1, seam.brace_kind] at hname
        cases hname
      rw [Seam.extend_cons hne]
      refine .ite Iff.rfl (fun _ ↦ ?_) fun h ↦ absurd hname h
      exact .skip_bind (fun _ ↦ is_eq_false_of_is hdot (by decide))
        (.skip_bind (not_brace_of_identifier hname) (.bind_pure ((holds_genericArguments htype).mono
          fun _ _ _ _ ↦ trivial)))
    · refine .of_not (p := True) (fun h ↦ absurd trivial h) fun _ _ result rest hread ↦ ?_
      dsimp only at hread
      rw [if_neg hname] at hread
      obtain ⟨rfl, rfl⟩ := reads_pure_iff.mp hread
      refine ⟨rfl, fun hends ↦ ?_⟩
      have hstands := hends rfl
      simp [hdot] at hstands

include hshorter in
theorem holds_component : seam.Holds (fun _ rest ↦ stands ["."] rest = false) (component type)
    (component type') scope tokens := by
  refine .bind (holds_primary htype hshorter) fun primary mid ↦ .bind_pure
    (.repeated (fun _ ↦ holds_suffix htype) ?_ ?_)
  · exact fun _ _ _ hrest _ ↦ hrest
  · rintro _ _ _ _ _ _ _ _ _ ⟨⟩

/-! ## Function types -/

omit htype in
theorem holds_functionEffect :
    seam.Holds Seam.anywhere functionEffect functionEffect scope tokens := by
  refine .accept_bind (by decide) (by decide) (fun _ _ _ _ ↦ .pure) fun _ ↦ ?_
  refine .accept_bind (by decide) (by decide) (fun _ back _ _ ↦ ?_) fun _ ↦ .pure
  exact .bind_pure (holds_adjoinedGroup .round (by decide))

theorem holds_function (lead : String) (parameters : Component) :
    seam.Holds (fun _ ↦ Avoids continuations) (function type lead parameters)
      (function type' lead parameters) scope tokens := by
  have heffects : seam.Holds Seam.anywhere (repeated functionEffect) (repeated functionEffect) scope
      tokens := .repeated (fun _ ↦ holds_functionEffect) (fun _ _ _ _ ↦ trivial)
        fun _ _ _ _ _ _ _ _ _ ↦ trivial
  exact .bind heffects fun effects mid ↦ .bind (.expect (by decide)) fun arrow mid ↦
    .bind_pure (htype scope mid)

/-! ## Types -/

omit htype in
theorem holds_lead (hsettled : Settled seam ["some", "any"] tokens) :
    seam.Holds Seam.anywhere lead lead scope tokens := by
  refine .ahead_bind (.ite (by rw [modifies_extend (by decide) hsettled]) (fun hmodifies ↦ ?_)
    fun _ ↦ .pure)
  rcases tokens with _ | ⟨word, _ | ⟨second, tokens⟩⟩
  · cases hmodifies
  · cases hmodifies
  · have hall : ∀ text ∈ ["some", "any"], text ≠ "\x7b" := by decide
    rw [modifies, Bool.and_eq_true, decide_eq_true_eq] at hmodifies
    have hlevel : word.is "\x7b" = false := by simp [Token.is, hall _ hmodifies.1]
    exact .next?_bind (fun _ ↦ hlevel) .pure

omit htype in
theorem arrowFrom_extend (afterEffect : Bool) (depth : Nat)
    (h : arrowFrom afterEffect depth tokens = true) :
    arrowFrom afterEffect depth (seam.extend tokens) = true := by
  induction tokens generalizing afterEffect depth with
  | nil => cases depth <;> cases h
  | cons token tokens ih =>
    by_cases hbrace : token :: tokens = [seam.brace]
    -- There is no arrow at the brace.
    · obtain ⟨rfl, rfl⟩ := List.cons.inj hbrace
      have htext : seam.brace.text = "\x7d" := text_eq_of_is seam.brace_is
      cases depth <;> simp [arrowFrom, Token.is, htext] at h
    · rw [Seam.extend_cons hbrace]
      cases depth with
      | zero =>
        rw [arrowFrom] at h ⊢
        split_ifs at h ⊢
        · exact ih false 1 h
        · exact ih true 0 h
        · exact h
      | succ depth =>
        rw [arrowFrom] at h ⊢
        split_ifs at h ⊢
        · exact ih false (depth + 2) h
        · exact ih false depth h
        · exact ih false (depth + 1) h

omit htype in
theorem arrowAhead_extend (h : arrowAhead tokens = true ∨ Avoids continuations tokens) :
    arrowAhead (seam.extend tokens) = arrowAhead tokens := by
  rcases h with harrow | havoids
  · rw [harrow]
    exact arrowFrom_extend false 0 harrow
  · have hfirst {token : Token} {tokens : List Token} (h : token.text ∉ continuations) :
        arrowAhead (token :: tokens) = token.is "->" := by
      simp only [continuations, List.mem_cons, List.not_mem_nil, or_false, not_or] at h
      simp [arrowAhead, arrowFrom, h]
    rcases tokens with _ | ⟨token, tokens⟩
    · rfl
    by_cases hbrace : token :: tokens = [seam.brace]
    · obtain ⟨rfl, rfl⟩ := List.cons.inj hbrace
      have hall : ∀ text ∈ continuations, text ∈ sought := by decide
      rw [Seam.extend_brace, hfirst (havoids _ rfl), hfirst fun h ↦ seam.next_text (hall _ h),
        Seam.brace_is_eq_false (by decide), Seam.next_is_eq_false (by decide)]
    · rw [Seam.extend_cons hbrace, hfirst (havoids _ rfl), hfirst (havoids _ rfl)]

omit htype in
private theorem not_stands_dot_of_arrowAhead (h : arrowAhead tokens = true) :
    stands ["."] tokens = false := by
  rcases tokens with _ | ⟨token, tokens⟩
  · rfl
  rw [stands_singleton_cons]
  by_contra hdot
  rw [Bool.not_eq_false] at hdot
  have htext := text_eq_of_is hdot
  simp [arrowAhead, arrowFrom, Token.is, htext] at h

omit htype in
/-- One symbol in front excludes another. -/
theorem not_stands_of_stands {text other : String} (h : stands [text] tokens = true)
    (hne : text ≠ other) : stands [other] tokens = false := by
  obtain ⟨token, back, rfl, his⟩ := stands_singleton_eq_true_iff.mp h
  simpa using is_eq_false_of_is his hne

include hshorter in
theorem holds_partTurns : seam.Holds (fun _ rest ↦ stands ["."] rest = false)
    (repeated (partTurn type)) (repeated (partTurn type')) scope tokens := by
  have hturn (tokens : List Token) : seam.Holds (fun _ rest ↦ stands ["."] rest = false)
      (partTurn type) (partTurn type') scope tokens :=
    .bind (.accept (by decide) (by decide)) fun _ _ ↦ .ite Iff.rfl
      (fun _ ↦ .bind_pure (holds_component htype hshorter)) fun _ ↦ .pure
  refine .repeated hturn (fun _ _ _ hrest ↦ hrest) fun number _ mid items rest hread _ _ hrest ↦ ?_
  rcases stands_or_eq_of_reads_turns hread with hpart | rfl
  · exact not_stands_of_stands hpart (by decide)
  · exact hrest

include hshorter in
theorem holds_bareAfter (word : String) : seam.Holds (fun _ ↦ Avoids continuations)
    (bareAfter type word) (bareAfter type' word) scope tokens := by
  have hleft {first : Component} {mid rest : List Token} {read : Bare}
      (hread : Reads (if word ≠ "" then
        pure { base := word ++ first.fullText, needsParens := true } else pure first.bare) scope mid
        read rest) : mid = rest := by
    rcases reads_ite_iff.mp hread with ⟨-, hpure⟩ | ⟨-, hpure⟩ <;> exact (reads_pure_iff.mp hpure).2
  refine .sees_bind (by decide) (.bind_of (holds_component htype hshorter) (fun first mid ↦ ?_) ?_)
  · -- Effects without an arrow are left, and nothing can follow that is taken for an arrow then.
    refine .of_not (p := arrowAhead mid = false ∧ ¬ Avoids continuations mid) (fun hnot ↦ ?_) ?_
    · have harrow : arrowAhead mid = true ∨ Avoids continuations mid := by
        rcases Bool.eq_false_or_eq_true (arrowAhead mid) with htrue | hfalse
        · exact .inl htrue
        · exact .inr (not_not.mp fun h ↦ hnot ⟨hfalse, h⟩)
      refine .ahead_bind (.ite (by rw [arrowAhead_extend harrow])
        (fun _ ↦ holds_function htype word first) fun _ ↦ .sees_bind (by decide)
        (.ite Iff.rfl (fun _ ↦ ?_) fun _ ↦ .ite Iff.rfl (fun _ ↦ .pure) fun _ ↦ .pure))
      exact .bind_pure ((holds_partTurns htype hshorter).mono
        fun _ _ _ hrest ↦ hrest.stands_eq_false (by decide))
    · rintro ⟨harrow, havoids⟩ - read rest hread
      have hpart : stands ["&"] mid = false := by
        by_contra hpart
        obtain ⟨token, back, rfl, his⟩ := stands_singleton_eq_true_iff.mp (by simpa using hpart)
        exact havoids (avoids_of_is his (by decide))
      rw [reads_ahead_bind_iff, harrow, Bool.and_false, if_neg Bool.false_ne_true,
        reads_sees_bind_iff, hpart, if_neg Bool.false_ne_true] at hread
      obtain rfl := hleft hread
      exact ⟨rfl, havoids⟩
  · intro first mid read rest _ hread _ _ hrest
    rw [reads_ahead_bind_iff] at hread
    rcases reads_ite_iff.mp hread with ⟨hfunction, -⟩ | ⟨-, hread⟩
    · rw [Bool.and_eq_true] at hfunction
      exact not_stands_dot_of_arrowAhead hfunction.2
    · rcases reads_ite_iff.mp (reads_sees_bind_iff.mp hread) with ⟨hpart, -⟩ | ⟨-, hread⟩
      · exact not_stands_of_stands hpart (by decide)
      · obtain rfl := hleft hread
        exact hrest.stands_eq_false (by decide)

include hshorter in
theorem holds_bare (hsettled : Settled seam ["some", "any"] tokens) :
    seam.Holds (fun _ ↦ Avoids continuations) (bare type) (bare type') scope tokens := by
  rw [bare_eq, bare_eq]
  exact .bind (holds_lead hsettled) fun word mid ↦ holds_bareAfter htype hshorter word

end Rules

/-! ## Words that are types by themselves -/

/-- The words that can stand in front of a type. -/
def fronts : List String :=
  ownershipSpecifiers ++ ["some", "any"]

/-- A text that ends with a word that can stand in front of a type. -/
def EndsBare (text : String) : Prop :=
  ∃ word ∈ fronts, text = word ∨ ∃ front, text = front ++ " " ++ word

theorem endsBare_iff {text : String} : EndsBare text ↔
    ∃ word ∈ fronts, text = word ∨ ' ' :: word.toList <:+ text.toList := by
  have hsuffix (word : String) :
      (∃ front, text = front ++ " " ++ word) ↔ ' ' :: word.toList <:+ text.toList := by
    constructor
    · rintro ⟨front, rfl⟩
      exact ⟨front.toList, by simp⟩
    · rintro ⟨front, hfront⟩
      exact ⟨String.ofList front, String.toList_injective (by simp [← hfront])⟩
  simp only [EndsBare, hsuffix]

instance : DecidablePred EndsBare :=
  fun _ ↦ decidable_of_iff _ endsBare_iff.symm

private theorem endsBare_declared {type : SwiftType} (hbase : type.base ∈ fronts)
    (hrequired : type.optionality = .required) : EndsBare type.declared := by
  have htext : type.text = type.base := by rw [text, hrequired, wrapped]
  refine ⟨type.base, hbase, ?_⟩
  rw [declared, htext]
  by_cases hinout : type.isInout = true
  · refine .inr ⟨String.join (type.attributes.map (· ++ " ")) ++ "inout", ?_⟩
    have hword : "inout " = "inout" ++ " " := rfl
    rw [if_pos hinout, hword, ← String.append_assoc]
  · rw [if_neg hinout, String.append_empty]
    rcases List.eq_nil_or_concat type.attributes with hnil | ⟨front, last, hlast⟩
    · refine .inl ?_
      rw [hnil]
      simp
    · refine .inr ⟨String.join (front.map (· ++ " ")) ++ last, ?_⟩
      rw [hlast, List.concat_eq_append, List.map_append]
      simp [String.append_assoc]

/-- Such a word in front of the brace is a type and nothing else. -/
theorem reads_bare_word {type : Reader SwiftType} {word : Token} (hword : word.text ∈ fronts)
    (hspelled : Spelled word.kind word.text.toList) :
    Reads (bare type) scope [word, seam.brace] { base := word.text } [seam.brace] := by
  have hall : ∀ text ∈ fronts, Spelled .identifier text.toList ∧ text ≠ "(" ∧ text ≠ "[" := by
    decide +kernel
  obtain ⟨hidentifier, hround, hsquare⟩ := hall _ hword
  have hkind : word.kind = .identifier := hspelled.kind_eq hidentifier
  have hlead : Reads lead scope [word, seam.brace] "" [word, seam.brace] := by
    simp [lead, modifies]
  have harguments : Reads (genericArguments type) scope [seam.brace] "" [seam.brace] := by
    have hadjoins : adjoins "<" [seam.brace] = false := by
      simp [adjoins, seam.brace_freshLine]
    simp [genericArguments, hadjoins]
  have hprimary : Reads (primary type) scope [word, seam.brace] { text := word.text }
      [seam.brace] := by
    refine reads_ahead_bind_iff.mpr ?_
    simp only [List.head?_cons, Token.is, hround, hsquare, hkind, decide_false, Bool.and_false,
      Bool.false_eq_true, if_false, if_true, reads_skip_bind_iff, List.tail_cons]
    refine harguments.bind_iff.mpr (reads_pure_iff.mpr ⟨?_, rfl⟩)
    rw [String.append_empty]
  have hsuffix : Reads (suffix type) scope [seam.brace] .stop [seam.brace] := by
    simp [suffix, seam.brace_freshLine]
  have hcomponent : Reads (component type) scope [word, seam.brace]
      { text := word.text, suffixes := [] } [seam.brace] :=
    hprimary.bind_iff.mpr (hsuffix.repeatFrom_stop.bind_iff.mpr .pure)
  have hbrace : stands ["&"] [seam.brace] = false := by
    simpa using Seam.brace_is_eq_false (by decide)
  refine hlead.bind_iff.mpr (reads_sees_bind_iff.mpr (hcomponent.bind_iff.mpr ?_))
  have hfirst : stands ["("] [word, seam.brace] = false := by
    simp [Token.is, hround]
  rw [hfirst, Bool.false_and, reads_ahead_bind_iff, Bool.false_and, if_neg Bool.false_ne_true,
    reads_sees_bind_iff, hbrace, if_neg Bool.false_ne_true, if_neg (by simp)]
  refine reads_pure_iff.mpr ⟨?_, rfl⟩
  simp [Component.bare, Component.fullText, parenthesizedSignature?]

/-! ## Types with what stands in front of them -/

theorem holds_specifiers : seam.Holds
    (fun _ rest ↦ rest ≠ [seam.brace] ∧ Settled seam fronts rest) (repeated specifier)
    (repeated specifier) scope tokens := by
  have hpart {rest : List Token} (h : Settled seam fronts rest) :
      Settled seam ownershipSpecifiers rest :=
    fun hstarts word hword hmem ↦ h hstarts word hword (List.mem_append_left _ hmem)
  refine .repeated (fun _ ↦ holds_specifier) (fun _ _ _ h ↦ ⟨h.1, hpart h.2⟩) ?_
  rintro number - mid specifiers rest - hsuffix hbrace ⟨hne, hsettled⟩
  have hlonger := one_lt_length hbrace hne
  have hle := hsuffix.length_le
  refine ⟨?_, fun hstarts word hword ↦ ?_⟩
  · rintro rfl
    simp only [List.length_singleton] at hle
    omega
  · subst hword
    obtain rfl := hsuffix.eq_of_length_le hlonger
    exact hpart hsettled hstarts word rfl

/-- If a type can begin in place of the brace, no type has been read that ends with a word that can
stand in front of one. -/
def Guarded (seam : Seam) : Prop :=
  startsType seam.next = true → ∀ type : SwiftType, seam.told (.readType type) →
    ¬ EndsBare type.declared

/-- A type with what stands in front of it. -/
def Bare.withSpecifiers (read : Bare) (specifiers : List Specifier) : SwiftType where
  base := read.base
  optionality := read.optionality
  attributes := specifiers.filterMap Specifier.written?
  isInout := specifiers.contains .inoutWord
  needsParens := read.needsParens
  signature? := read.signature?

/-- What is read after the specifiers. -/
def annotatedAfter (type : Reader SwiftType) (specifiers : List Specifier) : Reader SwiftType := do
  let read ← bare type
  tell (.readType (read.withSpecifiers specifiers))
  return read.withSpecifiers specifiers

private theorem annotated_eq (type : Reader SwiftType) :
    annotated type = repeated specifier >>= annotatedAfter type :=
  rfl

section Types

variable {type type' : Reader SwiftType} {specifiers : List Specifier}
  (htype : ∀ scope tokens, seam.Holds (fun _ ↦ Avoids continuations) type type' scope tokens)
  (hshorter : ∀ {scope tokens a rest}, Reads type scope tokens a rest →
    rest.length < tokens.length)
  (htold : Guarded seam)

include htold in
/-- A word in front of the brace would be told to be a type. -/
theorem settled_of_tells (hspelled : ∀ token ∈ tokens, Spelled token.kind token.text.toList)
    (htells : Tells seam.told (annotatedAfter type specifiers) scope tokens) :
    Settled seam fronts tokens := by
  rintro hstarts word rfl hword
  have hread : Reads (bare type) scope [word, seam.brace] { base := word.text } [seam.brace] :=
    reads_bare_word hword (hspelled word List.mem_cons_self)
  have hnotice := (htells.of_bind hread).2 _ List.mem_cons_self
  exact htold hstarts _ hnotice (endsBare_declared hword rfl)

include htype hshorter htold in
theorem holds_annotatedAfter : seam.Holds (fun _ ↦ Avoids continuations)
    (annotatedAfter type specifiers) (annotatedAfter type' specifiers) scope tokens := by
  by_cases hsettled : Settled seam fronts tokens
  · have hwords : Settled seam ["some", "any"] tokens := fun hstarts word hword hmem ↦
      hsettled hstarts word hword (List.mem_append_right _ hmem)
    refine .bind_of (holds_bare htype hshorter hwords) (fun _ _ ↦ .tell_bind .pure) ?_
    intro bare mid annotated rest _ hread _ _ hrest
    have hpure := reads_tell_bind_iff.mp hread
    obtain ⟨-, rfl⟩ := reads_pure_iff.mp hpure
    exact hrest
  · intro hspelled annotated rest hread
    obtain ⟨hstarts, word, rfl, hmem⟩ := not_settled_iff.mp hsettled
    have hbare : Reads (bare type) scope [word, seam.brace] { base := word.text } [seam.brace] :=
      reads_bare_word hmem (hspelled word List.mem_cons_self)
    have hpure := reads_tell_bind_iff.mp (hbare.bind_iff.mp hread)
    obtain ⟨-, rfl⟩ := reads_pure_iff.mp hpure
    have hall : ∀ text ∈ fronts, text ≠ "\x7b" := by decide
    refine ⟨[word], rfl, levels_of_text (hall _ hmem), fun _ _ htells _ ↦ ?_⟩
    exact absurd hmem (settled_of_tells htold hspelled htells hstarts word rfl)

include htype hshorter htold in
theorem holds_annotated (hbare : ∀ {scope tokens read rest},
      Reads (bare type) scope tokens read rest → rest.length < tokens.length) :
    seam.Holds (fun _ ↦ Avoids continuations) (annotated type) (annotated type') scope tokens := by
  rw [annotated_eq, annotated_eq]
  refine .bind_of_tells holds_specifiers (fun _ _ ↦ holds_annotatedAfter htype hshorter htold) ?_
  intro specifiers mid annotated rest hmid hread hsuffix hbrace _ htells
  refine ⟨?_, settled_of_tells htold hmid htells⟩
  obtain ⟨bare, back, hbare', hread⟩ := reads_bind_iff.mp hread
  have hpure := reads_tell_bind_iff.mp hread
  obtain ⟨-, rfl⟩ := reads_pure_iff.mp hpure
  have hlt := hbare hbare'
  have hle := hbrace.length_le
  rintro rfl
  simp only [List.length_singleton] at hlt hle
  omega

end Types

private theorem length_lt_of_reads_bare {depth : Nat} {read : Bare} {rest : List Token}
    (h : Reads (bare (readWithin depth)) scope tokens read rest) : rest.length < tokens.length := by
  obtain ⟨consumed, rfl, hgood⟩ :=
    keeps_bare tame_nil (by simp) (keeps_readWithin tame_nil (by simp) depth) scope _ h
  have hne : consumed ≠ [] := by
    rintro rfl
    exact (hgood (List.infix_refl [])).1 rfl
  have hpos := List.length_pos_of_ne_nil hne
  rw [List.length_append]
  omega

theorem length_lt_of_reads_within {depth : Nat} {type : SwiftType} {rest : List Token}
    (h : Reads (readWithin depth) scope tokens type rest) : rest.length < tokens.length := by
  cases depth with
  | zero => exact absurd (reads_ahead_bind_iff.mp h) not_reads_fail
  | succ depth =>
    obtain ⟨specifiers, mid, hspecifiers, hread⟩ := reads_bind_iff.mp h
    obtain ⟨read, back, hbare, hread⟩ := reads_bind_iff.mp hread
    have hpure := reads_tell_bind_iff.mp hread
    obtain ⟨-, rfl⟩ := reads_pure_iff.mp hpure
    obtain ⟨front, pieces, rfl, rfl, -⟩ := exists_specified_of_reads hspecifiers
    have hlt := length_lt_of_reads_bare hbare
    rw [List.length_append]
    omega

section Read

variable (htold : Guarded seam)
include htold

theorem holds_readWithin {depth depth' : Nat} (hle : depth ≤ depth') : seam.Holds
    (fun _ ↦ Avoids continuations) (readWithin depth) (readWithin depth') scope tokens := by
  induction depth generalizing depth' scope tokens with
  | zero =>
    refine .of_not_reads fun type rest hread ↦ ?_
    exact not_reads_fail (reads_ahead_bind_iff.mp hread)
  | succ depth ih =>
    obtain ⟨more, rfl⟩ := Nat.exists_eq_add_of_le' hle
    exact holds_annotated (fun _ _ ↦ ih (Nat.le_add_left depth more)) length_lt_of_reads_within
      htold length_lt_of_reads_bare

/-- A type is read across a seam where nothing stands that goes on with it. -/
theorem holds_read : seam.Holds (fun _ ↦ Avoids continuations) read read scope tokens := by
  intro hspelled type rest hread
  have hle := seam.length_le_extend tokens
  obtain ⟨taken, htokens, hlevels, hextend⟩ :=
    holds_readWithin htold hle hspelled (reads_read_iff.mp hread)
  exact ⟨taken, htokens, hlevels, fun hbrace hfollow htells scope' ↦
    reads_read_iff.mpr (hextend hbrace hfollow htells scope')⟩

end Read

end SwiftType

end TestDouble
