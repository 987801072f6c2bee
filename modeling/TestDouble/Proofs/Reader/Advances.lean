import TestDouble.Proofs.Reader.Basic
import TestDouble.Proofs.Token.Round

/-!
# Repetitions advance

A repetition breaks off where a turn asks for another one and has taken no token. Nothing depends on
that if each turn that asks for another has taken one, for then a repetition is its first turn and a
repetition of the others. To see that a turn takes a token, only its first steps have to be looked
at: whatever follows them puts no token back.
-/

namespace TestDouble.Reader

variable {α β : Type} {read other : Reader α} {next : α → Reader β} {scope : Scope}
  {tokens rest : List Token} {n : Nat}

/-- The reader puts no tokens back. -/
def Recedes ⦃α : Type⦄ (read : Reader α) : Prop :=
  ∀ ⦃scope : Scope⦄ ⦃tokens rest : List Token⦄ ⦃a : α⦄,
    Reads read scope tokens a rest → rest.length ≤ tokens.length

/-- The reader takes at least one token. -/
def Takes (read : Reader α) : Prop :=
  ∀ ⦃scope : Scope⦄ ⦃tokens rest : List Token⦄ ⦃a : α⦄,
    Reads read scope tokens a rest → rest.length < tokens.length

theorem takes_expect {text context : String} : Takes (expect text context) := by
  intro scope tokens rest token hread
  obtain ⟨rfl, -⟩ := reads_expect_iff.mp hread
  exact Nat.lt_succ_self _

/-- A group is at least a closer. -/
theorem takes_group {bracket : Bracket} : Takes (group bracket) := by
  intro scope tokens rest inner hread
  obtain ⟨closer, htail, -⟩ := Bracket.exists_closer_of_closeFrom (reads_group_iff.mp hread)
  have hlength := congrArg List.length htail
  rw [List.length_tail, List.length_append, List.length_cons] at hlength
  omega

theorem Takes.bind (h : Takes read) (hnext : ∀ a, Recedes (next a)) : Takes (read >>= next) := by
  intro scope tokens rest b hread
  obtain ⟨a, mid, hfirst, hsecond⟩ := reads_bind_iff.mp hread
  exact Nat.lt_of_le_of_lt (hnext a hsecond) (h hfirst)

/-! ## What is left after some values -/

/-- Fewer than `n` tokens are left whenever the value is one of `values`. -/
def LeavesBelow (n : Nat) (values : α → Prop) (read : Reader α) (scope : Scope)
    (tokens : List Token) : Prop :=
  ∀ ⦃a : α⦄ ⦃rest : List Token⦄, Reads read scope tokens a rest → values a → rest.length < n

namespace LeavesBelow

variable {values : α → Prop}

theorem of_recedes (h : Recedes read) (htokens : tokens.length < n) :
    LeavesBelow n values read scope tokens :=
  fun _ _ hread _ ↦ Nat.lt_of_le_of_lt (h hread) htokens

theorem pure {a : α} (h : ¬ values a) : LeavesBelow n values (Pure.pure a) scope tokens := by
  intro b rest hread hvalue
  obtain ⟨rfl, -⟩ := reads_pure_iff.mp hread
  exact absurd hvalue h

theorem fail {cause : Cause} {line? : Option Nat} :
    LeavesBelow n values (Reader.fail cause line?) scope tokens :=
  fun _ _ hread ↦ (not_reads_fail hread).elim

theorem ite {p : Prop} [Decidable p] (h : p → LeavesBelow n values read scope tokens)
    (hother : ¬ p → LeavesBelow n values other scope tokens) :
    LeavesBelow n values (if p then read else other) scope tokens := by
  by_cases hp : p
  · rw [if_pos hp]
    exact h hp
  · rw [if_neg hp]
    exact hother hp

variable {values : β → Prop}

theorem bind (h : ∀ a mid, Reads read scope tokens a mid →
    LeavesBelow n values (next a) scope mid) :
    LeavesBelow n values (read >>= next) scope tokens := by
  intro b rest hread
  obtain ⟨a, mid, hfirst, hsecond⟩ := reads_bind_iff.mp hread
  exact h a mid hfirst hsecond

theorem ahead_bind {next : List Token → Reader β}
    (h : LeavesBelow n values (next tokens) scope tokens) :
    LeavesBelow n values (ahead >>= next) scope tokens :=
  fun _ _ hread ↦ h (reads_ahead_bind_iff.mp hread)

theorem tell_bind {notice : Notice} {next : Unit → Reader β}
    (h : LeavesBelow n values (next ()) scope tokens) :
    LeavesBelow n values (tell notice >>= next) scope tokens :=
  fun _ _ hread ↦ h (reads_tell_bind_iff.mp hread)

theorem skip_bind {next : Unit → Reader β} (h : LeavesBelow n values (next ()) scope tokens.tail) :
    LeavesBelow n values (skip >>= next) scope tokens :=
  fun _ _ hread ↦ h (reads_skip_bind_iff.mp hread)

theorem next?_bind {next : Option Token → Reader β}
    (h : LeavesBelow n values (next tokens.head?) scope tokens.tail) :
    LeavesBelow n values (next? >>= next) scope tokens :=
  fun _ _ hread ↦ h (reads_next?_bind_iff.mp hread)

theorem fail_bind {cause : Cause} {line? : Option Nat} :
    LeavesBelow n values (Reader.fail cause line? >>= next) scope tokens :=
  bind fun _ _ hread ↦ (not_reads_fail hread).elim

/-- A word that is taken is a token less. -/
theorem accept_ite {text : String} {read other : Reader β} (hle : tokens.length ≤ n)
    (h : Recedes read) (hother : LeavesBelow n values other scope tokens) :
    LeavesBelow n values (accept text >>= fun accepted ↦ if accepted then read else other) scope
      tokens := by
  refine bind fun accepted mid hread ↦ ?_
  rcases reads_accept_iff.mp hread with ⟨rfl, token, rfl, -⟩ | ⟨rfl, -, rfl⟩
  · exact ite (fun _ ↦ of_recedes h hle) fun hnot ↦ absurd rfl hnot
  · exact ite (fun hfalse ↦ absurd hfalse Bool.false_ne_true) fun _ ↦ hother

theorem bind_of_takes (hle : tokens.length ≤ n) (h : Takes read) (hnext : ∀ a, Recedes (next a)) :
    LeavesBelow n values (read >>= next) scope tokens :=
  bind fun a _ hread ↦ of_recedes (hnext a) (Nat.lt_of_lt_of_le (h hread) hle)

end LeavesBelow

/-! ## Turns -/

def Turn.AsksForMore : Turn α → Prop
  | .more _ => True
  | .stop | .last _ => False

/-- A turn that asks for another one has taken a token. -/
def Advances (turn : Reader (Turn α)) : Prop :=
  ∀ scope tokens, LeavesBelow tokens.length Turn.AsksForMore turn scope tokens

theorem Advances.length_lt {turn : Reader (Turn α)} (h : Advances turn) {a : α}
    (hresult : (turn scope tokens).result = .ok (.more a)) :
    (turn scope tokens).rest.length < tokens.length :=
  h scope tokens ⟨hresult, rfl⟩ trivial

/-- What a repetition gives after a turn, with `others` for the turns that may follow. -/
def Turn.follow (others : Reader (List α)) : Turn α → Reader (List α)
  | .stop => pure []
  | .last item => pure [item]
  | .more item => others >>= fun items ↦ pure (item :: items)

/-- A repetition of turns that advance is the first turn and, if that one asks for more, a
repetition of the others, without a condition on the tokens that are left. -/
theorem repeatFrom_eq {turn : Nat → Reader (Turn α)} (h : ∀ number, Advances (turn number))
    (number : Nat) :
    repeatFrom turn number = turn number >>= Turn.follow (repeatFrom turn (number + 1)) := by
  funext scope tokens
  rw [repeatFrom]
  rcases hresult : (turn number scope tokens).result with fault | _ | item | item
  · simp [bind, hresult]
  · simp [bind, hresult, Turn.follow, pure]
  · simp [bind, hresult, Turn.follow, pure]
  · have hlt := (h number).length_lt hresult
    rcases hothers :
        (repeatFrom turn (number + 1) scope (turn number scope tokens).rest).result with
      fault | items <;>
      simp [bind, pure, hresult, Turn.follow, hlt, hothers, Except.map]

end TestDouble.Reader
