import TestDouble.Proofs.Reader.Compositional
import TestDouble.Proofs.Reader.Seam

/-!
# What is collected, and what goes wrong

Tokens are collected one by one or by whole groups, and where to stop is seen from the next token
alone. So what has been collected up to some place is collected as well in front of any other
tokens, and from there on it is those that decide how it goes on: where to stop, or what goes wrong.
-/

namespace TestDouble.Reader

open Token

variable {α β : Type} {read : Reader α} {next : α → Reader β} {scope : Scope}
  {tokens mid rest : List Token} {fault : Fault}

/-! ## Faults -/

/-- The reader refuses the tokens. -/
def Faults (read : Reader α) (scope : Scope) (tokens : List Token) (fault : Fault) : Prop :=
  (read scope tokens).result = .error fault

theorem Faults.result_eq (h : Faults read scope tokens fault) :
    (read scope tokens).result = .error fault :=
  h

theorem Faults.bind (h : Faults read scope tokens fault) :
    Faults (read >>= next) scope tokens fault :=
  (bind_of_error h).1

theorem Faults.map {f : α → β} (h : Faults read scope tokens fault) :
    Faults (f <$> read) scope tokens fault :=
  h.bind

theorem Reads.faults_bind {a : α} (h : Reads read scope tokens a mid)
    (hnext : Faults (next a) scope mid fault) : Faults (read >>= next) scope tokens fault := by
  obtain ⟨hresult, rfl⟩ := h
  exact (bind_of_ok hresult).1.trans hnext

@[simp] theorem faults_ahead_bind_iff {next : List Token → Reader β} :
    Faults (ahead >>= next) scope tokens fault ↔ Faults (next tokens) scope tokens fault :=
  Iff.rfl

theorem Faults.sees_bind {text : String} {next : Bool → Reader β}
    (h : Faults (next (stands [text] tokens)) scope tokens fault) :
    Faults (sees text >>= next) scope tokens fault :=
  (reads_sees_iff.mpr ⟨rfl, rfl⟩ : Reads (sees text) scope tokens _ tokens).faults_bind h

section Repetition

variable {turn : Nat → Reader (Turn α)} {number : Nat}

theorem Faults.repeatFrom (h : Faults (turn number) scope tokens fault) :
    Faults (repeatFrom turn number) scope tokens fault :=
  (repeatFrom_of_error h).1

theorem Reads.faults_repeatFrom {a : α} (h : Reads (turn number) scope tokens (.more a) mid)
    (hlt : mid.length < tokens.length)
    (hothers : Faults (Reader.repeatFrom turn (number + 1)) scope mid fault) :
    Faults (Reader.repeatFrom turn number) scope tokens fault := by
  obtain ⟨hresult, rfl⟩ := h
  refine (repeatFrom_of_more hresult hlt).1.trans ?_
  rw [hothers.result_eq]
  rfl

end Repetition

/-! ## Collecting -/

variable {stop : List Token → Bool}

theorem collectPart_of_opener {token : Token} {bracket : Bracket}
    (h : token.is bracket.opener = true) (hne : bracket ≠ .angle) : collectPart token = (do
      let inner ← group bracket
      let closer : Token := { kind := .punctuation, text := bracket.closer, line := token.line }
      return .more (token :: inner ++ [closer])) := by
  have hfind : [Bracket.round, .square, .curly].find? (token.is ·.opener) = some bracket := by
    have hother (other : Bracket) : token.is other.opener = decide (other = bracket) := by
      by_cases heq : other = bracket
      · rw [heq, h, decide_eq_true rfl]
      · rw [decide_eq_false heq]
        exact is_eq_false_of_is h fun htext ↦ heq (Bracket.opener_injective htext.symm)
    simp only [hother]
    cases bracket <;> first | rfl | exact absurd rfl hne
  rw [collectPart, hfind]

theorem Reads.exists_collectPart {token : Token} {bracket : Bracket} {inner : List Token}
    (hgroup : Reads (group bracket) scope (token :: tokens) inner rest)
    (h : token.is bracket.opener = true) (hne : bracket ≠ .angle) :
    ∃ part, Reads (collectPart token) scope (token :: tokens) (.more part) rest := by
  rw [collectPart_of_opener h hne]
  exact ⟨_, hgroup.bind_iff.mpr .pure⟩

theorem Faults.collectPart {token : Token} {bracket : Bracket}
    (hgroup : Faults (group bracket) scope (token :: tokens) fault)
    (h : token.is bracket.opener = true) (hne : bracket ≠ .angle) :
    Faults (Reader.collectPart token) scope (token :: tokens) fault := by
  rw [collectPart_of_opener h hne]
  exact hgroup.bind

theorem Reads.collectTurn {token : Token} {turn : Turn (List Token)}
    (h : Reads (collectPart token) scope (token :: tokens) turn rest)
    (hstop : stop (token :: tokens) = false) :
    Reads (collectTurn stop) scope (token :: tokens) turn rest :=
  reads_ahead_bind_iff.mpr (reads_ite_iff.mpr (.inr ⟨by simp [hstop], h⟩))

theorem Faults.collectTurn {token : Token}
    (h : Faults (Reader.collectPart token) scope (token :: tokens) fault)
    (hstop : stop (token :: tokens) = false) :
    Faults (collectTurn stop) scope (token :: tokens) fault := by
  refine faults_ahead_bind_iff.mpr ?_
  rw [hstop]
  exact h

theorem reads_collectTurn_stop (hstop : stop tokens = true) :
    Reads (Reader.collectTurn stop) scope tokens .stop tokens :=
  reads_ahead_bind_iff.mpr (reads_ite_iff.mpr (.inl ⟨hstop, .pure⟩))

/-- What is taken is taken whatever follows it. -/
theorem reads_collectPart {token : Token} {turn : Turn (List Token)}
    (h : Reads (collectPart token) scope (token :: tokens) turn rest) :
    ∃ part taken, turn = .more part ∧ tokens = taken ++ rest ∧ ∀ scope' back,
      Reads (collectPart token) scope' (token :: (taken ++ back)) (.more part) back := by
  rw [collectPart] at h ⊢
  split at h
  · next bracket hfind =>
    obtain ⟨inner, mid, hgroup, hpure⟩ := reads_bind_iff.mp h
    obtain ⟨rfl, rfl⟩ := reads_pure_iff.mp hpure
    obtain ⟨closer, htokens, hclosed⟩ :=
      Bracket.exists_closer_of_closeFrom (reads_group_iff.mp hgroup)
    refine ⟨_, inner ++ [closer], rfl, ?_, fun scope' back ↦ ?_⟩
    · rw [List.tail_cons] at htokens
      simp [htokens]
    · have hgroup' : Reads (group bracket) scope' (token :: (inner ++ [closer] ++ back)) inner
          back := by
        rw [reads_group_iff, List.tail_cons, List.append_assoc]
        exact hclosed back
      exact hgroup'.bind_iff.mpr .pure
  · next hfind =>
    have hpure := reads_skip_bind_iff.mp h
    obtain ⟨rfl, rfl⟩ := reads_pure_iff.mp hpure
    refine ⟨_, [], rfl, rfl, fun scope' back ↦ ?_⟩
    simp

/-- A turn stops, or it takes tokens whatever follows them. -/
theorem reads_collectTurn {turn : Turn (List Token)}
    (hstop : ∀ token tokens tokens', stop (token :: tokens) = stop (token :: tokens'))
    (h : Reads (collectTurn stop) scope tokens turn rest) :
    turn = .stop ∧ tokens = rest ∨ ∃ part taken, turn = .more part ∧ taken ≠ [] ∧
      tokens = taken ++ rest ∧
      ∀ scope' back, Reads (collectTurn stop) scope' (taken ++ back) (.more part) back := by
  rcases reads_ite_iff.mp (reads_ahead_bind_iff.mp h) with ⟨-, hpure⟩ | ⟨hends, h⟩
  · obtain ⟨rfl, rfl⟩ := reads_pure_iff.mp hpure
    exact .inl ⟨rfl, rfl⟩
  right
  rcases tokens with _ | ⟨token, tokens⟩
  · exact absurd h not_reads_fail
  obtain ⟨part, taken, rfl, rfl, hagain⟩ := reads_collectPart h
  refine ⟨part, token :: taken, rfl, List.cons_ne_nil _ _, rfl, fun scope' back ↦ ?_⟩
  refine (hagain scope' back).collectTurn ?_
  rw [hstop token _ (taken ++ rest)]
  exact Bool.eq_false_iff.mpr hends

/-- What has been collected is collected in front of other tokens, and it goes on with these. -/
theorem collects_append
    (hstop : ∀ token tokens tokens', stop (token :: tokens) = stop (token :: tokens'))
    {number : Nat} {parts : List (List Token)}
    (h : Reads (repeatFrom (fun _ ↦ collectTurn stop) number) scope tokens parts rest) :
    ∃ front, tokens = front ++ rest ∧ ∀ scope' back,
      (∀ others rest', Reads (repeated (collectTurn stop)) scope' back others rest' →
        Reads (repeatFrom (fun _ ↦ collectTurn stop) number) scope' (front ++ back)
          (parts ++ others) rest') ∧
      ∀ fault, Faults (repeated (collectTurn stop)) scope' back fault →
        Faults (repeatFrom (fun _ ↦ collectTurn stop) number) scope' (front ++ back) fault := by
  have hshorter {taken : List Token} (hne : taken ≠ []) (back : List Token) :
      back.length < (taken ++ back).length := by
    rw [List.length_append]
    exact Nat.lt_add_of_pos_left (List.length_pos_of_ne_nil hne)
  induction h using Reads.repeatFrom_induction with
  | @stop _ number hturn =>
    rcases reads_collectTurn hstop hturn with ⟨-, rfl⟩ | ⟨_, _, hnot, -⟩
    · refine ⟨[], rfl, fun scope' back ↦ ?_⟩
      rw [repeatFrom_const _ number 0]
      exact ⟨fun _ _ hread ↦ hread, fun _ hfault ↦ hfault⟩
    · cases hnot
  | last hturn =>
    rcases reads_collectTurn hstop hturn with ⟨hnot, -⟩ | ⟨_, _, hnot, -⟩ <;> cases hnot
  | more hturn _ _ ih =>
    rcases reads_collectTurn hstop hturn with ⟨hnot, -⟩ | ⟨_, taken, hpart, hne, rfl, hagain⟩
    · cases hnot
    obtain ⟨front, rfl, hfront⟩ := ih
    cases hpart
    refine ⟨taken ++ front, (List.append_assoc ..).symm, fun scope' back ↦ ?_⟩
    have hturn' := hagain scope' (front ++ back)
    have hlt := hshorter hne (front ++ back)
    rw [List.append_assoc]
    refine ⟨fun others rest' hread ↦ ?_, fun fault hfault ↦ ?_⟩
    · exact hturn'.repeatFrom_more hlt ((hfront scope' back).1 _ _ hread)
    · exact hturn'.faults_repeatFrom hlt ((hfront scope' back).2 _ hfault)
  | stuck hturn hstuck =>
    rcases reads_collectTurn hstop hturn with ⟨hnot, -⟩ | ⟨_, taken, -, hne, rfl, -⟩
    · cases hnot
    · exact absurd (hshorter hne _) hstuck

end TestDouble.Reader
