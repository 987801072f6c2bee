import Mathlib.Data.List.Infix
import TestDouble.Proofs.Reader.Compositional

/-!
# Readers go forward

What a reader leaves are the tokens it was given without some of those in front. That holds where a
value is read, and also where a fault is found. So the place where a reader stands in the whole of
the tokens is known from how many are left.
-/

namespace TestDouble

/-! ## Groups -/

namespace Bracket

/-- The tokens after the place where following a group ended. -/
def Closing.rest : Closing → List Token
  | closed _ rest | mismatched _ _ rest => rest
  | endless => []

@[simp] theorem Closing.rest_cons (token : Token) (closing : Closing) :
    (closing.cons token).rest = closing.rest := by
  cases closing <;> rfl

private theorem rest_closeFrom_suffix (outermost innermost : Bracket) (enclosing : List Bracket)
    (tokens : List Token) :
    (closeFrom outermost innermost enclosing tokens).rest <:+ tokens := by
  fun_induction closeFrom outermost innermost enclosing tokens with
  | case1 => exact List.suffix_rfl
  | case2 innermost enclosing token tokens hneutral ih =>
    rw [Closing.rest_cons]
    exact ih.trans (List.suffix_cons token tokens)
  | case3 innermost enclosing token tokens bracket hopens ih =>
    rw [Closing.rest_cons]
    exact ih.trans (List.suffix_cons token tokens)
  | case4 innermost enclosing token tokens bracket hcloses hne =>
    exact List.suffix_cons token tokens
  | case5 innermost token tokens bracket hcloses heq => exact List.suffix_cons token tokens
  | case6 innermost token tokens bracket hcloses heq next outer ih =>
    rw [Closing.rest_cons]
    exact ih.trans (List.suffix_cons token tokens)

end Bracket

namespace Reader

@[simp] theorem rest_group (bracket : Bracket) (scope : Scope) (tokens : List Token) :
    (group bracket scope tokens).rest = (bracket.close tokens.tail).rest := by
  rw [group]
  cases bracket.close tokens.tail <;> rfl

/-! ## Going forward -/

/-- What is left is an end part of the tokens, with a value or with a fault. -/
def Forward ⦃α : Type⦄ (read : Reader α) : Prop :=
  ∀ scope tokens, (read scope tokens).rest <:+ tokens

private theorem forward_bind {α β : Type} {read : Reader α} {next : α → Reader β} (h : Forward read)
    (hnext : ∀ a, Forward (next a)) : Forward (read >>= next) := by
  intro scope tokens
  rcases hresult : (read scope tokens).result with fault | a
  · rw [(bind_of_error hresult).2]
    exact h scope tokens
  · rw [(bind_of_ok hresult).2]
    exact (hnext a scope _).trans (h scope tokens)

private theorem forward_repeatFrom {α : Type} {turn : Nat → Reader (Turn α)}
    (h : ∀ number, Forward (turn number)) (hadvances : ∀ number, Advances (turn number))
    (number : Nat) : Forward (repeatFrom turn number) := by
  intro scope tokens
  induction hlength : tokens.length using Nat.strongRecOn generalizing tokens number with
  | ind length ih =>
    have hturn := h number scope tokens
    rcases hresult : (turn number scope tokens).result with fault | _ | item | item
    · rwa [(repeatFrom_of_error hresult).2]
    · rwa [(repeatFrom_of_stop hresult).2]
    · rwa [(repeatFrom_of_last hresult).2]
    · have hrest := (hadvances number).length_lt hresult
      rw [(repeatFrom_of_more hresult hrest).2]
      exact (ih _ (hlength ▸ hrest) (number + 1) _ rfl).trans hturn

theorem forward_compositional : Compositional Forward where
  pure _ _ _ := List.suffix_rfl
  bind := forward_bind
  onTokens h scope tokens := h tokens scope tokens
  inMember member _ h scope tokens := h { scope with place.member? := some member } tokens
  tell _ _ _ := List.suffix_rfl
  fail _ _ _ _ := List.suffix_rfl
  refuse _ _ _ := List.suffix_rfl
  next? _ tokens := List.tail_suffix tokens
  group bracket scope tokens := by
    rw [rest_group]
    exact (Bracket.rest_closeFrom_suffix bracket bracket [] _).trans (List.tail_suffix tokens)
  repeatFrom := forward_repeatFrom

end Reader

end TestDouble
