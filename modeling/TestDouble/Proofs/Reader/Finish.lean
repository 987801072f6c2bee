import TestDouble.Proofs.Reader.Compositional

/-!
# Where the text ends

The end of the text is on a line, and a fault at the end lies there. No reader asks for that line
before it has come to the end: every value it gives, and every fault it gives while tokens are left,
it would give wherever the text ended.
-/

namespace TestDouble.Reader

variable {α β : Type} {read : Reader α} {next : α → Reader β} {scope : Scope} {tokens : List Token}

/-- For another end of the text a value is the same, and so is a fault in front of tokens. -/
def IgnoresFinishAt (read : Reader α) (scope : Scope) (tokens : List Token) : Prop :=
  (read scope tokens).result.isOk = true ∨ (read scope tokens).rest ≠ [] → ∀ finish,
    (read { scope with finish } tokens).result = (read scope tokens).result ∧
      (read { scope with finish } tokens).rest = (read scope tokens).rest

def IgnoresFinish ⦃α : Type⦄ (read : Reader α) : Prop :=
  ∀ scope tokens, IgnoresFinishAt read scope tokens

theorem IgnoresFinish.fail {cause : Cause} (line? : Option Nat) :
    IgnoresFinish (fail cause line? : Reader α) := by
  rintro scope (_ | ⟨token, tokens⟩) hread finish
  · simp [Reader.fail, Except.isOk, Except.toBool] at hread
  · exact ⟨rfl, rfl⟩

theorem IgnoresFinishAt.bind (h : IgnoresFinishAt read scope tokens)
    (hnext : ∀ a rest, Reads read scope tokens a rest → IgnoresFinishAt (next a) scope rest) :
    IgnoresFinishAt (read >>= next) scope tokens := by
  intro hread finish
  rcases hresult : (read scope tokens).result with fault | a
  · rw [(bind_of_error hresult).1, (bind_of_error hresult).2] at hread ⊢
    obtain ⟨hsame, hleft⟩ := h (hread.imp_left nofun) finish
    have hresult' := hsame.trans hresult
    exact ⟨(bind_of_error hresult').1, (bind_of_error hresult').2.trans hleft⟩
  · rw [(bind_of_ok hresult).1, (bind_of_ok hresult).2] at hread ⊢
    obtain ⟨hsame, hleft⟩ := h (.inl (by rw [hresult]; rfl)) finish
    have hresult' := hsame.trans hresult
    rw [(bind_of_ok hresult').1, (bind_of_ok hresult').2, hleft]
    exact hnext a _ ⟨hresult, rfl⟩ hread finish

/-- The line on which an endless group began is the end of the text only where no group began. -/
theorem IgnoresFinish.group (bracket : Bracket) : IgnoresFinish (group bracket) := by
  rintro scope (_ | ⟨token, tokens⟩) hread finish
  · simp [Reader.group, Bracket.close, Bracket.closeFrom, Reader.fail, Except.isOk, Except.toBool]
      at hread
  · rw [Reader.group] at hread ⊢
    rw [Reader.group]
    split at hread
    · exact ⟨rfl, rfl⟩
    · exact IgnoresFinish.fail _ _ _ hread finish
    · exact IgnoresFinish.fail _ _ _ hread finish

theorem IgnoresFinish.repeatFrom {turn : Nat → Reader (Turn α)}
    (h : ∀ number, IgnoresFinish (turn number)) (hadvances : ∀ number, Advances (turn number))
    (number : Nat) : IgnoresFinish (repeatFrom turn number) := by
  intro scope tokens
  induction hlength : tokens.length using Nat.strongRecOn generalizing tokens number with
  | ind length ih =>
    rw [repeatFrom_eq hadvances]
    refine (h number scope tokens).bind fun turn rest hturn ↦ ?_
    cases turn with
    -- Nothing is read behind the last turn.
    | stop | last => exact fun _ _ ↦ ⟨rfl, rfl⟩
    | more item =>
      -- The turns that follow have fewer tokens.
      have hlt := hadvances number scope tokens hturn trivial
      exact (ih _ (hlength ▸ hlt) (number + 1) rest rfl).bind fun _ _ _ _ _ ↦ ⟨rfl, rfl⟩

theorem ignoresFinish_compositional : Compositional IgnoresFinish where
  pure _ _ _ _ _ := ⟨rfl, rfl⟩
  bind h hnext scope tokens := (h scope tokens).bind fun a rest _ ↦ hnext a scope rest
  onTokens h scope tokens := h tokens scope tokens
  inMember member _ h scope tokens := h { scope with place.member? := some member } tokens
  tell _ _ _ _ _ := ⟨rfl, rfl⟩
  fail line? _ := .fail line?
  refuse _ _ _ _ _ := ⟨rfl, rfl⟩
  next? _ _ _ _ := ⟨rfl, rfl⟩
  group := .group
  repeatFrom := .repeatFrom

end TestDouble.Reader
