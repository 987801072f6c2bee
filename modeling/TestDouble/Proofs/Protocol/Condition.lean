import TestDouble.Proofs.Protocol.Body
import TestDouble.Proofs.Protocol.Wording
import TestDouble.Proofs.Reader.Collect

/-!
# Where clauses

A where clause goes up to the end of the member, and groups in it are taken whole. Its text is that
of the tokens, on one line, and there they are taken again: what ended no member where the clause
was written does not end one either where no line is broken.
-/

namespace TestDouble

open Reader Token

/-- Tokens that are taken up to the end of a member: openers with their groups, and others. -/
inductive Collectible : List Token → Prop
  | nil : Collectible []
  | single {token : Token} {tokens : List Token} : endsMember [token] = false →
      (∀ bracket : Bracket, bracket ≠ .angle → token.is bracket.opener = false) →
      Collectible tokens → Collectible (token :: tokens)
  | group {bracket : Bracket} {opener closer : Token} {inner tokens : List Token} :
      endsMember [opener] = false → bracket ≠ .angle → opener.is bracket.opener = true →
      Bracket.Paired bracket inner → Bracket.Closes bracket bracket closer →
      Collectible tokens → Collectible (opener :: (inner ++ closer :: tokens))

/-! ## What is collected -/

section Parts

variable {scope : Scope} {token : Token} {tokens rest part : List Token}

private theorem reads_collectPart_iff_of_not_opener (h : ∀ bracket : Bracket, bracket ≠ .angle →
    token.is bracket.opener = false) :
    Reads (collectPart token) scope (token :: tokens) (.more part) rest ↔
      part = [token] ∧ tokens = rest := by
  have hfind : [Bracket.round, .square, .curly].find? (token.is ·.opener) = none := by
    refine List.find?_eq_none.mpr fun bracket hmem ↦ ?_
    rw [h bracket (by rintro rfl; revert hmem; decide)]
    exact Bool.false_ne_true
  rw [collectPart, hfind]
  refine reads_skip_bind_iff.trans (reads_pure_iff.trans ?_)
  rw [Turn.more.injEq, eq_comm, List.tail_cons]

/-- A group is given with a closer of the same text. -/
theorem reads_collectPart_iff_of_opener {bracket : Bracket} (h : token.is bracket.opener = true)
    (hne : bracket ≠ .angle) : Reads (collectPart token) scope (token :: tokens) (.more part) rest ↔
      ∃ inner closer, tokens = inner ++ closer :: rest ∧ bracket.Paired inner ∧
        bracket.Closes bracket closer ∧
        part = token :: inner ++ [⟨.punctuation, bracket.closer, token.line, false⟩] := by
  rw [collectPart_of_opener h hne, reads_bind_iff]
  constructor
  · rintro ⟨inner, mid, hgroup, hpure⟩
    obtain ⟨heq, rfl⟩ := reads_pure_iff.mp hpure
    obtain ⟨closer, htokens, hinner, hcloser⟩ := Bracket.ends_closed_iff.mp
      (Bracket.close_eq_iff.mp (reads_group_iff.mp hgroup))
    exact ⟨inner, closer, htokens, hinner, hcloser, (Turn.more.inj heq).symm⟩
  · rintro ⟨inner, closer, rfl, hinner, hcloser, rfl⟩
    have hgroup : Reads (group bracket) scope (token :: (inner ++ closer :: rest)) inner rest :=
      reads_group_iff.mpr (Bracket.close_eq_closed hinner hcloser)
    exact ⟨inner, rest, hgroup, .pure⟩

/-- What one turn takes goes in front of what other turns take. -/
theorem exists_collectible_of_reads_collectTurn
    (h : Reads (collectTurn endsMember) scope tokens (.more part) rest) :
    ∃ taken, tokens = taken ++ rest ∧ part.map (·.text) = taken.map (·.text) ∧
      ∀ others, Collectible others → Collectible (taken ++ others) := by
  rcases reads_ite_iff.mp (reads_ahead_bind_iff.mp h) with ⟨-, hpure⟩ | ⟨hgoes, hpart⟩
  · cases (reads_pure_iff.mp hpure).1
  rcases tokens with _ | ⟨token, tokens⟩
  · exact absurd hpart not_reads_fail
  have hmember : endsMember [token] = false := Bool.eq_false_iff.mpr hgoes
  by_cases hopener : ∃ bracket : Bracket, bracket ≠ .angle ∧ token.is bracket.opener = true
  · obtain ⟨bracket, hne, his⟩ := hopener
    obtain ⟨inner, closer, rfl, hinner, hcloser, rfl⟩ :=
      (reads_collectPart_iff_of_opener his hne).mp hpart
    refine ⟨token :: (inner ++ [closer]), by simp, by simp [hcloser.text_eq], fun others h ↦ ?_⟩
    rw [List.cons_append, List.append_assoc]
    exact .group hmember hne his hinner hcloser h
  · have hnone : ∀ bracket : Bracket, bracket ≠ .angle → token.is bracket.opener = false := by
      simpa using hopener
    obtain ⟨rfl, rfl⟩ := (reads_collectPart_iff_of_not_opener hnone).mp hpart
    exact ⟨[token], rfl, rfl, fun others h ↦ .single hmember hnone h⟩

private theorem exists_collectible_of_reads_repeatFrom {number : Nat} {parts : List (List Token)}
    (h : Reads (repeatFrom (fun _ ↦ collectTurn endsMember) number) scope tokens parts rest) :
    ∃ taken, tokens = taken ++ rest ∧ Collectible taken ∧
      parts.flatten.map (·.text) = taken.map (·.text) := by
  induction h using Reads.repeatFrom_induction with
  | stop hturn =>
    rcases reads_collectTurn (fun _ _ _ ↦ rfl) hturn with ⟨-, rfl⟩ | ⟨_, _, hnot, -⟩
    · exact ⟨[], rfl, .nil, rfl⟩
    · cases hnot
  | last hturn =>
    rcases reads_collectTurn (fun _ _ _ ↦ rfl) hturn with ⟨hnot, -⟩ | ⟨_, _, hnot, -⟩ <;>
      cases hnot
  | more hturn _ _ ih =>
    obtain ⟨front, rfl, htexts, hfront⟩ := exists_collectible_of_reads_collectTurn hturn
    obtain ⟨back, rfl, hback, htexts'⟩ := ih
    refine ⟨front ++ back, (List.append_assoc ..).symm, hfront back hback, ?_⟩
    rw [List.flatten_cons, List.map_append, List.map_append, htexts, htexts']
  | stuck hturn hstuck =>
    exact absurd ((leavesSuffix_receding.collectTurn _).2 scope _ hturn trivial) hstuck

/-- What is collected up to the end of a member has the texts of the tokens that were taken. -/
theorem exists_collectible_of_reads {collected : List Token}
    (h : Reads (collectUntil endsMember) scope tokens collected rest) :
    ∃ taken, tokens = taken ++ rest ∧ Collectible taken ∧
      collected.map (·.text) = taken.map (·.text) := by
  rw [collectUntil_eq] at h
  obtain ⟨parts, hparts, rfl⟩ := reads_map_iff.mp h
  exact exists_collectible_of_reads_repeatFrom hparts

end Parts

namespace Collectible

variable {taken : List Token}

theorem map_unbroken (h : Collectible taken) : Collectible (taken.map Token.unbroken) := by
  have hends {token : Token} (h : endsMember [token] = false) :
      endsMember [token.unbroken] = false := by
    simp only [endsMember, Bool.or_eq_false_iff] at h ⊢
    exact ⟨h.1, Bool.false_and _⟩
  induction h with
  | nil => exact .nil
  | single hmember hopener _ ih => exact .single (hends hmember) hopener ih
  | group hmember hne hopener hinner hcloser _ ih =>
    rw [List.map_cons, List.map_append, List.map_cons]
    exact .group (hends hmember) hne hopener hinner.map_unbroken
      (Bracket.marks_unbroken_iff.mpr hcloser) ih

theorem exists_reads_repeatFrom (h : Collectible taken) (number : Nat) (scope : Scope)
    {after : List Token} (hafter : endsMember after = true) :
    ∃ parts, Reads (repeatFrom (fun _ ↦ collectTurn endsMember) number) scope (taken ++ after) parts
      after ∧ parts.flatten.map (·.text) = taken.map (·.text) := by
  induction h generalizing number with
  | nil => exact ⟨[], (reads_collectTurn_stop hafter).repeatFrom_stop, rfl⟩
  | @single token tokens hmember hopener _ ih =>
    obtain ⟨parts, hparts, htexts⟩ := ih (number + 1)
    have hpart : Reads (collectPart token) scope (token :: (tokens ++ after)) (.more [token])
        (tokens ++ after) := (reads_collectPart_iff_of_not_opener hopener).mpr ⟨rfl, rfl⟩
    refine ⟨_, (hpart.collectTurn hmember).repeatFrom_more (by simp) hparts, ?_⟩
    simp [htexts]
  | @group bracket opener closer inner tokens hmember hne hopener hinner hcloser _ ih =>
    obtain ⟨parts, hparts, htexts⟩ := ih (number + 1)
    have hpart : Reads (collectPart opener) scope (opener :: (inner ++ closer :: (tokens ++ after)))
        (.more (opener :: inner ++ [⟨.punctuation, bracket.closer, opener.line, false⟩]))
        (tokens ++ after) :=
      (reads_collectPart_iff_of_opener hopener hne).mpr ⟨inner, closer, rfl, hinner, hcloser, rfl⟩
    rw [List.cons_append, List.append_assoc, List.cons_append]
    refine ⟨_, (hpart.collectTurn hmember).repeatFrom_more ?_ hparts, ?_⟩
    · simp only [List.length_cons, List.length_append]
      omega
    · simp [htexts, hcloser.text_eq]

theorem reads_join (h : Collectible taken) (scope : Scope) {after : List Token}
    (hafter : endsMember after = true) : Reads (Token.join <$> collectUntil endsMember) scope
      (taken ++ after) (Token.join taken) after := by
  obtain ⟨parts, hparts, htexts⟩ := h.exists_reads_repeatFrom 0 scope hafter
  refine reads_map_iff.mpr ⟨parts.flatten, ?_, congrArg joinTexts htexts⟩
  rw [collectUntil_eq]
  exact reads_map_iff.mpr ⟨parts, hparts, rfl⟩

/-- Closers of parentheses and square brackets may stand alone, but no brace does. -/
theorem nests (h : Collectible taken)
    (hspelled : ∀ token ∈ taken, Spelled token.kind token.text.toList) (opened : List Bracket) :
    Nests (· ≠ .curly) opened taken opened := by
  induction h with
  | nil => exact .nil
  | @single token tokens hmember hopener _ ih =>
    obtain ⟨-, htokens⟩ := List.forall_mem_cons.mp hspelled
    have hbrace : token.is "\x7d" = false := by
      simp only [endsMember, Bool.or_eq_false_iff] at hmember
      exact hmember.1.1
    have htoken : Nests (· ≠ .curly) opened [token] opened := by
      refine .of_not_opener (fun bracket his ↦ ?_) fun bracket his ↦ ?_
      · by_contra hne
        simp [hopener bracket hne] at his
      · rintro rfl
        exact absurd his (by simp [Bracket.closer, hbrace])
    exact htoken.append (ih htokens)
  | @group bracket opener closer inner tokens hmember hne hopener hinner hcloser _ ih =>
    obtain ⟨hfirst, hothers⟩ := List.forall_mem_cons.mp hspelled
    have htokens := (List.forall_mem_cons.mp (List.forall_mem_append.mp hothers).2).2
    have hclose : bracket.close (inner ++ closer :: tokens) = .closed inner tokens :=
      Bracket.close_eq_closed hinner hcloser
    obtain ⟨closer', heq, hgroup⟩ := nests_of_close (· ≠ .curly) hclose hfirst hopener opened
    obtain ⟨rfl, -⟩ := List.cons.inj (List.append_cancel_left heq)
    have hnests := hgroup.append (ih htokens)
    simpa using hnests

end Collectible

/-! ## Clauses that are recovered -/

/-- The text of a where clause is collected again from its tokens, where nothing follows it on the
line. -/
structure RecoversCondition (condition : String) (tokens : List Token) : Prop where
  spells : Spells [] condition.toList tokens
  reads : ∀ scope after, endsMember after = true →
    Reads (Token.join <$> collectUntil endsMember) scope (tokens ++ after) condition after
  nests : ∀ opened, Nests (· ≠ .curly) opened tokens opened

theorem Collectible.recoversCondition {taken : List Token} (h : Collectible taken)
    (hspelled : ∀ token ∈ taken, Spelled token.kind token.text.toList) (hapart : Apart taken) :
    RecoversCondition (Token.join taken) (taken.map Token.unbroken) where
  spells := spells_joinTexts hspelled hapart
  reads scope after hafter := by
    have hread := h.map_unbroken.reads_join scope hafter
    simpa using hread
  nests := h.map_unbroken.nests (List.forall_mem_map.mpr hspelled)

end TestDouble
