import TestDouble.Proofs.Reader.Basic
import TestDouble.Proofs.Token.Nesting

/-!
# How brackets are read

A reader that takes an opener leaves a bracket open, and one that takes a closer closes a bracket
that another reader has left open. So what is said of a reader is how the open brackets change while
it reads, and readers in a row are put together as these changes fit. What is taken is nested in the
end because the reader of a whole begins and ends without an open bracket.

Readers look at the tokens ahead before they take one by its place, so the rules are about a reader
and the tokens before it.
-/

namespace TestDouble.Reader

open TestDouble.Bracket Token

variable {α β : Type} {loose : Bracket → Prop} {opened opened' mid : List Bracket} {scope : Scope}
  {tokens : List Token} {token : Token}

/-- What is read comes off the front of the tokens and changes the open brackets as told. -/
def Shifts (loose : Bracket → Prop) (opened opened' : List Bracket) (read : Reader α)
    (scope : Scope) (tokens : List Token) : Prop :=
  (∀ token ∈ tokens, Spelled token.kind token.text.toList) →
    ∀ ⦃a : α⦄ ⦃rest : List Token⦄, Reads read scope tokens a rest →
      ∃ taken, tokens = taken ++ rest ∧ Nests loose opened taken opened'

namespace Shifts

variable {read other : Reader α}

theorem pure {a : α} : Shifts loose opened opened (Pure.pure a) scope tokens := by
  intro _ b rest hread
  obtain ⟨-, rfl⟩ := reads_pure_iff.mp hread
  exact ⟨[], rfl, .nil⟩

theorem fail {cause : Cause} {line? : Option Nat} :
    Shifts loose opened opened' (fail cause line? : Reader α) scope tokens :=
  fun _ _ _ hread ↦ (not_reads_fail hread).elim

theorem fail_bind {cause : Cause} {line? : Option Nat} {next : α → Reader β} :
    Shifts loose opened opened' (Reader.fail cause line? >>= next) scope tokens := by
  intro _ b rest hread
  obtain ⟨_, _, hfirst, -⟩ := reads_bind_iff.mp hread
  exact (not_reads_fail hfirst).elim

theorem refuse {cause : Cause} :
    Shifts loose opened opened' (refuse cause : Reader α) scope tokens :=
  fun _ _ _ hread ↦ (not_reads_refuse hread).elim

theorem bind {next : α → Reader β} (h : Shifts loose opened mid read scope tokens)
    (hnext : ∀ a tokens, Shifts loose mid opened' (next a) scope tokens) :
    Shifts loose opened opened' (read >>= next) scope tokens := by
  intro hspelled b rest hread
  obtain ⟨a, between, hfirst, hsecond⟩ := reads_bind_iff.mp hread
  obtain ⟨front, rfl, hfront⟩ := h hspelled hfirst
  obtain ⟨back, rfl, hback⟩ :=
    hnext a between (fun token htoken ↦ hspelled token (List.mem_append_right _ htoken)) hsecond
  exact ⟨front ++ back, (List.append_assoc ..).symm, hfront.append hback⟩

/-- The first of two readers takes what it changes the open brackets with. -/
theorem exists_of_bind (loose : Bracket → Prop) (opened : List Bracket) {next : α → Reader β}
    (h : Shifts loose opened mid read scope tokens)
    (hspelled : ∀ token ∈ tokens, Spelled token.kind token.text.toList) {b : β} {rest : List Token}
    (hread : Reads (read >>= next) scope tokens b rest) :
    ∃ a front back, tokens = front ++ back ∧ Nests loose opened front mid ∧
      (∀ token ∈ back, Spelled token.kind token.text.toList) ∧
      Reads read scope (front ++ back) a back ∧ Reads (next a) scope back b rest := by
  obtain ⟨a, back, hfirst, hsecond⟩ := reads_bind_iff.mp hread
  obtain ⟨front, rfl, hfront⟩ := h hspelled hfirst
  exact ⟨a, front, back, rfl, hfront, fun token htoken ↦ hspelled token
    (List.mem_append_right _ htoken), hfirst, hsecond⟩

theorem map {f : α → β} (h : Shifts loose opened opened' read scope tokens) :
    Shifts loose opened opened' (f <$> read) scope tokens := by
  intro hspelled b rest hread
  obtain ⟨a, hfirst, -⟩ := reads_map_iff.mp hread
  exact h hspelled hfirst

theorem ite {p : Prop} [Decidable p] (h : p → Shifts loose opened opened' read scope tokens)
    (hother : ¬ p → Shifts loose opened opened' other scope tokens) :
    Shifts loose opened opened' (if p then read else other) scope tokens := by
  by_cases hp : p
  · rw [if_pos hp]
    exact h hp
  · rw [if_neg hp]
    exact hother hp

/-- A part that is read under a condition, before what is read in any case. -/
theorem optionally {p : Prop} [Decidable p] {next : Reader β}
    (h : p → Shifts loose opened opened read scope tokens)
    (hnext : ∀ tokens, Shifts loose opened opened' next scope tokens) :
    Shifts loose opened opened' (if p then read >>= fun _ ↦ next else next) scope tokens :=
  .ite (fun hp ↦ (h hp).bind fun _ ↦ hnext) fun _ ↦ hnext tokens

/-- Either of two parts, before what is read in any case. -/
theorem either {p : Prop} [Decidable p] {next : α → Reader β}
    (h : p → Shifts loose opened mid read scope tokens)
    (hother : ¬ p → Shifts loose opened mid other scope tokens)
    (hnext : ∀ a tokens, Shifts loose mid opened' (next a) scope tokens) :
    Shifts loose opened opened' (if p then read >>= next else other >>= next) scope tokens :=
  .ite (fun hp ↦ (h hp).bind hnext) fun hp ↦ (hother hp).bind hnext

theorem inMember {member : String}
    (h : Shifts loose opened opened' read { scope with place.member? := some member } tokens) :
    Shifts loose opened opened' (inMember member read) scope tokens :=
  fun hspelled _ _ hread ↦ h hspelled ⟨hread.result_eq, hread.rest_eq⟩

theorem ahead_bind {next : List Token → Reader α}
    (h : Shifts loose opened opened' (next tokens) scope tokens) :
    Shifts loose opened opened' (ahead >>= next) scope tokens :=
  fun hspelled _ _ hread ↦ h hspelled (reads_ahead_bind_iff.mp hread)

theorem sees_bind {text : String} {next : Bool → Reader α}
    (h : Shifts loose opened opened' (next (stands [text] tokens)) scope tokens) :
    Shifts loose opened opened' (sees text >>= next) scope tokens :=
  fun hspelled _ _ hread ↦ h hspelled (reads_sees_bind_iff.mp hread)

theorem tell_bind {notice : Notice} {next : Unit → Reader α}
    (h : Shifts loose opened opened' (next ()) scope tokens) :
    Shifts loose opened opened' (tell notice >>= next) scope tokens :=
  fun hspelled _ _ hread ↦ h hspelled (reads_tell_bind_iff.mp hread)

/-! ## Single tokens -/

/-- A token in front of what is read. -/
theorem cons (hspelled : ∀ t ∈ token :: tokens, Spelled t.kind t.text.toList)
    (htoken : Nests loose opened [token] mid) (h : Shifts loose mid opened' read scope tokens)
    {a : α} {rest : List Token} (hread : Reads read scope tokens a rest) :
    ∃ taken, token :: tokens = taken ++ rest ∧ Nests loose opened taken opened' := by
  obtain ⟨taken, rfl, htaken⟩ := h (List.forall_mem_cons.mp hspelled).2 hread
  exact ⟨token :: taken, rfl, htoken.append htaken⟩

theorem next?_bind {next : Option Token → Reader α}
    (htoken : Spelled token.kind token.text.toList → Nests loose opened [token] mid)
    (h : Shifts loose mid opened' (next (some token)) scope tokens) :
    Shifts loose opened opened' (next? >>= next) scope (token :: tokens) :=
  fun hspelled _ _ hread ↦ cons hspelled (htoken (hspelled token List.mem_cons_self)) h
    (reads_next?_bind_iff.mp hread)

theorem skip_bind {next : Unit → Reader α}
    (htoken : Spelled token.kind token.text.toList → Nests loose opened [token] mid)
    (h : Shifts loose mid opened' (next ()) scope tokens) :
    Shifts loose opened opened' (skip >>= next) scope (token :: tokens) :=
  fun hspelled _ _ hread ↦ cons hspelled (htoken (hspelled token List.mem_cons_self)) h
    (reads_skip_bind_iff.mp hread)

theorem skip (htoken : Spelled token.kind token.text.toList → Nests loose opened [token] opened') :
    Shifts loose opened opened' skip scope (token :: tokens) :=
  .next?_bind htoken .pure

theorem expect {text context : String}
    (h : ∀ token : Token, Spelled token.kind token.text.toList → token.is text = true →
      Nests loose opened [token] opened') :
    Shifts loose opened opened' (expect text context) scope tokens := by
  intro hspelled token rest hread
  obtain ⟨rfl, his⟩ := reads_expect_iff.mp hread
  exact ⟨[token], rfl, h token (hspelled token List.mem_cons_self) his⟩

theorem expect_mark {text context : String} (htext : text ∉ texts) :
    Shifts loose opened opened (Reader.expect text context) scope tokens :=
  expect fun _ _ his ↦ .of_is his htext

theorem expect_opener (bracket : Bracket) {context : String} (hne : bracket ≠ .angle) :
    Shifts loose opened (bracket :: opened) (Reader.expect bracket.opener context) scope tokens :=
  expect fun _ hspelled his ↦ .of_opener bracket hspelled his hne

theorem expect_closer (bracket : Bracket) {context : String} (hne : bracket ≠ .angle) :
    Shifts loose (bracket :: opened) opened (Reader.expect bracket.closer context) scope tokens :=
  expect fun _ hspelled his ↦ .of_closer bracket hspelled his hne

theorem expectName {context : String} :
    Shifts loose opened opened (Reader.expectName context) scope tokens := by
  intro hspelled token rest hread
  obtain ⟨rfl, hname⟩ := reads_expectName_iff.mp hread
  exact ⟨[token], rfl, .of_isName (hspelled token List.mem_cons_self) hname⟩

theorem accept {text : String} (htext : text ∉ texts) :
    Shifts loose opened opened (Reader.accept text) scope tokens := by
  intro _ accepted rest hread
  rcases reads_accept_iff.mp hread with ⟨-, token, rfl, his⟩ | ⟨-, -, rfl⟩
  · exact ⟨[token], rfl, .of_is his htext⟩
  · exact ⟨[], rfl, .nil⟩

/-- A word or symbol that is not accepted leaves the tokens as they are. -/
theorem accept_bind {text : String} {next : Bool → Reader α} (htext : text ∉ texts)
    (haccepted : ∀ tokens, Shifts loose opened opened' (next true) scope tokens)
    (hleft : Shifts loose opened opened' (next false) scope tokens) :
    Shifts loose opened opened' (Reader.accept text >>= next) scope tokens := by
  intro hspelled a rest hread
  obtain ⟨accepted, between, haccept, hnext⟩ := reads_bind_iff.mp hread
  rcases reads_accept_iff.mp haccept with ⟨rfl, token, rfl, his⟩ | ⟨rfl, -, rfl⟩
  · exact cons hspelled (.of_is his htext) (haccepted between) hnext
  · exact hleft hspelled hnext

theorem group (bracket : Bracket) (h : stands [bracket.opener] tokens = true) :
    Shifts loose opened opened (Reader.group bracket) scope tokens := by
  intro hspelled inner rest hread
  obtain ⟨opener, back, rfl, hopener⟩ := stands_singleton_eq_true_iff.mp h
  obtain ⟨closer, hback, hnests⟩ := nests_of_close loose (reads_group_iff.mp hread)
    (hspelled opener List.mem_cons_self) hopener opened
  refine ⟨opener :: (inner ++ [closer]), ?_, hnests⟩
  rw [List.tail_cons] at hback
  simp [hback]

end Shifts

/-! ## Repetition -/

namespace Shifts

theorem repeatFrom {turn : Nat → Reader (Turn α)} {number : Nat}
    (h : ∀ number tokens, Shifts loose opened opened (turn number) scope tokens) :
    Shifts loose opened opened (repeatFrom turn number) scope tokens := by
  intro hspelled items rest hread
  induction hread using Reads.repeatFrom_induction with
  | stop hturn | last hturn | stuck hturn => exact h _ _ hspelled hturn
  | more hturn _ _ ih =>
    obtain ⟨front, rfl, hfront⟩ := h _ _ hspelled hturn
    obtain ⟨back, rfl, hback⟩ :=
      ih fun token htoken ↦ hspelled token (List.mem_append_right _ htoken)
    exact ⟨front ++ back, (List.append_assoc ..).symm, hfront.append hback⟩

theorem repeated {turn : Reader (Turn α)}
    (h : ∀ tokens, Shifts loose opened opened turn scope tokens) :
    Shifts loose opened opened (repeated turn) scope tokens :=
  repeatFrom fun _ ↦ h

theorem separated {item : Reader α} (h : ∀ tokens, Shifts loose opened opened item scope tokens) :
    Shifts loose opened opened (separated item) scope tokens := by
  refine (h tokens).bind fun _ _ ↦ .bind (.repeated fun tokens ↦ ?_) fun _ _ ↦ .pure
  refine .bind (.accept (by decide)) fun _ tokens ↦ .ite (fun _ ↦ ?_) fun _ ↦ .pure
  exact (h tokens).bind fun _ _ ↦ .pure

/-- What is collected is nested but for closers that stand alone. -/
theorem collectUntil {stop : List Token → Bool} :
    Shifts (fun _ ↦ True) opened opened (collectUntil stop) scope tokens := by
  refine .bind (.repeated fun tokens ↦ .ahead_bind (.ite (fun _ ↦ .pure) fun _ ↦ ?_))
    fun _ _ ↦ .pure
  rcases tokens with _ | ⟨token, tokens⟩
  · exact .fail
  dsimp only
  split
  · next bracket hfound =>
    have hopener : stands [bracket.opener] (token :: tokens) = true := by
      simpa [stands] using List.find?_some hfound
    exact .bind (.group bracket hopener) fun _ _ ↦ .pure
  · next hnone =>
    refine .skip_bind (fun _ ↦ .of_not_opener (fun bracket his ↦ ?_) fun _ _ ↦ trivial) .pure
    by_contra hangle
    have hmem : bracket ∈ [Bracket.round, .square, .curly] := by
      cases bracket <;> first | contradiction | decide
    exact List.find?_eq_none.mp hnone bracket hmem his

end Shifts

end TestDouble.Reader
