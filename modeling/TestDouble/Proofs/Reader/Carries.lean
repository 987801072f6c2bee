import TestDouble.Proofs.Reader.Compositional

/-!
# Readings that are carried over

Tokens may be followed by others. What was read of them is carried over if it is read as well with
the others behind, and these are left in addition. A reader that looks ahead may come to see them,
and then it is for the rule in question that they must not be what it looks for.
-/

namespace TestDouble.Reader

variable {α β : Type} {read read' other other' : Reader α} {tokens after : List Token}

/-! ## Looking ahead -/

theorem stands_append_eq {texts : List String} (hafter : stands texts after = false)
    (tokens : List Token) : stands texts (tokens ++ after) = stands texts tokens := by
  cases tokens with
  | nil => exact hafter
  | cons => rfl

/-! ## Carrying over -/

/-- What is read is read as well in front of the tokens `after`, in any scope, by a reader that may
differ. -/
def Carries (after : List Token) (read read' : Reader α) (tokens : List Token) : Prop :=
  ∀ ⦃scope scope' : Scope⦄ ⦃a : α⦄ ⦃rest : List Token⦄, Reads read scope tokens a rest →
    Reads read' scope' (tokens ++ after) a (rest ++ after)

namespace Carries

theorem pure {a : α} : Carries after (Pure.pure a) (Pure.pure a) tokens := by
  intro _ _ b rest hread
  obtain ⟨rfl, rfl⟩ := reads_pure_iff.mp hread
  simp

theorem fail {cause : Cause} {line? : Option Nat} : Carries after (fail cause line?) read' tokens :=
  fun _ _ _ _ hread ↦ (not_reads_fail hread).elim

theorem fail_bind {γ : Type} {cause : Cause} {line? : Option Nat} {next : γ → Reader β}
    {read' : Reader β} : Carries after (Reader.fail cause line? >>= next) read' tokens := by
  intro _ _ b rest hread
  obtain ⟨_, _, hfail, -⟩ := reads_bind_iff.mp hread
  exact (not_reads_fail hfail).elim

theorem bind {next next' : α → Reader β} (h : Carries after read read' tokens)
    (hnext : ∀ a mid, Carries after (next a) (next' a) mid) :
    Carries after (read >>= next) (read' >>= next') tokens := by
  intro _ _ b rest hread
  obtain ⟨a, mid, hfirst, hsecond⟩ := reads_bind_iff.mp hread
  exact (h hfirst).bind_iff.mpr (hnext a mid hsecond)

theorem bind_pure {f : α → β} (h : Carries after read read' tokens) :
    Carries after (read >>= fun a ↦ Pure.pure (f a)) (read' >>= fun a ↦ Pure.pure (f a)) tokens :=
  h.bind fun _ _ ↦ pure

theorem ite {p p' : Prop} [Decidable p] [Decidable p'] (hsame : p' ↔ p)
    (h : p → Carries after read read' tokens) (hother : ¬ p → Carries after other other' tokens) :
    Carries after (if p then read else other) (if p' then read' else other') tokens := by
  by_cases hp : p
  · rw [if_pos hp, if_pos (hsame.mpr hp)]
    exact h hp
  · rw [if_neg hp, if_neg (mt hsame.mp hp)]
    exact hother hp

theorem ahead_bind {next next' : List Token → Reader β}
    (h : Carries after (next tokens) (next' (tokens ++ after)) tokens) :
    Carries after (ahead >>= next) (ahead >>= next') tokens :=
  fun _ _ _ _ hread ↦ reads_ahead_bind_iff.mpr (h (reads_ahead_bind_iff.mp hread))

theorem tell_bind {notice : Notice} {next next' : Unit → Reader β}
    (h : Carries after (next ()) (next' ()) tokens) :
    Carries after (tell notice >>= next) (tell notice >>= next') tokens :=
  fun _ _ _ _ hread ↦ reads_tell_bind_iff.mpr (h (reads_tell_bind_iff.mp hread))

theorem sees_bind {text : String} {next next' : Bool → Reader β}
    (hafter : stands [text] after = false)
    (h : Carries after (next (stands [text] tokens)) (next' (stands [text] tokens)) tokens) :
    Carries after (sees text >>= next) (sees text >>= next') tokens := by
  intro _ _ b rest hread
  rw [reads_sees_bind_iff, stands_append_eq hafter]
  exact h (reads_sees_bind_iff.mp hread)

section Steps

variable {token : Token}

theorem skip_bind {next next' : Unit → Reader β}
    (h : Carries after (next ()) (next' ()) tokens) :
    Carries after (skip >>= next) (skip >>= next') (token :: tokens) :=
  fun _ _ _ _ hread ↦ reads_skip_bind_iff.mpr (h (reads_skip_bind_iff.mp hread))

theorem next?_bind {next next' : Option Token → Reader β}
    (h : Carries after (next (some token)) (next' (some token)) tokens) :
    Carries after (next? >>= next) (next? >>= next') (token :: tokens) :=
  fun _ _ _ _ hread ↦ reads_next?_bind_iff.mpr (h (reads_next?_bind_iff.mp hread))

end Steps

theorem expect {text context : String} :
    Carries after (expect text context) (expect text context) tokens := by
  intro _ _ token rest hread
  obtain ⟨rfl, his⟩ := reads_expect_iff.mp hread
  exact reads_expect_iff.mpr ⟨rfl, his⟩

theorem accept {text : String} (hafter : stands [text] after = false) :
    Carries after (accept text) (accept text) tokens := by
  intro _ _ accepted rest hread
  rcases reads_accept_iff.mp hread with ⟨rfl, token, rfl, his⟩ | ⟨rfl, hstands, rfl⟩
  · exact reads_accept_iff.mpr (.inl ⟨rfl, token, rfl, his⟩)
  · exact reads_accept_iff.mpr (.inr ⟨rfl, (stands_append_eq hafter _).trans hstands, rfl⟩)

theorem accept_bind {text : String} {next next' : Bool → Reader β}
    (hafter : stands [text] after = false)
    (h : ∀ token back, tokens = token :: back → Carries after (next true) (next' true) back)
    (hother : Carries after (next false) (next' false) tokens) :
    Carries after (Reader.accept text >>= next) (Reader.accept text >>= next') tokens := by
  intro _ _ b rest hread
  obtain ⟨accepted, mid, haccept, hsecond⟩ := reads_bind_iff.mp hread
  refine (accept hafter haccept).bind_iff.mpr ?_
  rcases reads_accept_iff.mp haccept with ⟨rfl, token, htokens, -⟩ | ⟨rfl, -, rfl⟩
  · exact h token mid htokens hsecond
  · exact hother hsecond

/-- A group ends at its closer, whatever follows. -/
theorem group {bracket : Bracket} (hne : tokens ≠ []) :
    Carries after (group bracket) (group bracket) tokens := by
  intro _ _ inner rest hread
  obtain ⟨closer, htail, hagain⟩ := Bracket.exists_closer_of_closeFrom (reads_group_iff.mp hread)
  refine reads_group_iff.mpr ?_
  rw [List.tail_append_of_ne_nil hne, htail, List.append_assoc]
  exact hagain (rest ++ after)

theorem repeatFrom {turn turn' : Nat → Reader (Turn α)}
    (h : ∀ number mid, Carries after (turn number) (turn' number) mid) (number : Nat) :
    Carries after (repeatFrom turn number) (repeatFrom turn' number) tokens := by
  intro _ _ items rest hread
  induction hread using Reads.repeatFrom_induction with
  | stop hturn => exact (h _ _ hturn).repeatFrom_stop
  | last hturn => exact (h _ _ hturn).repeatFrom_last
  | more hturn hlt _ ih => exact (h _ _ hturn).repeatFrom_more (by simpa using hlt) ih
  | stuck hturn hstuck => exact (h _ _ hturn).repeatFrom_stuck (by simpa using hstuck)

theorem repeated {turn turn' : Reader (Turn α)}
    (h : ∀ mid, Carries after turn turn' mid) :
    Carries after (repeated turn) (repeated turn') tokens :=
  repeatFrom (fun _ ↦ h) 0

theorem separated (hafter : stands [","] after = false)
    (h : ∀ mid, Carries after read read' mid) :
    Carries after (separated read) (separated read') tokens :=
  (h tokens).bind fun _ _ ↦ bind_pure (repeated fun _ ↦
    (accept hafter).bind fun _ mid ↦ ite Iff.rfl (fun _ ↦ bind_pure (h mid)) fun _ ↦ pure)

end Carries

end TestDouble.Reader
