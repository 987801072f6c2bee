import Mathlib.Data.List.Infix
import TestDouble.Proofs.Protocol.Locate

/-!
# Matching braces

Two braces match if what stands between them closes as many braces as it opens, and no front of it
closes more. A count of the open braces that ends where none is left ends at the matching brace, and
where there is none it runs to the end of the text.
-/

namespace TestDouble

/-! ## Balance -/

/-- Within `depth` open braces, no front of the tokens closes more of them than there are. -/
def Within (depth : Nat) (tokens : List Token) : Prop :=
  ∀ front, front <+: tokens → front.countP (·.is "\x7d") ≤ depth + front.countP (·.is "\x7b")

/-- No front of the tokens closes more braces than it opens. -/
abbrev Balanced (tokens : List Token) : Prop :=
  Within 0 tokens

instance (depth : Nat) (tokens : List Token) : Decidable (Within depth tokens) :=
  decidable_of_iff (∀ front ∈ tokens.inits, front.countP (·.is "\x7d") ≤
    depth + front.countP (·.is "\x7b")) (by simp only [List.mem_inits, Within])

namespace Within

variable {depth : Nat} {token : Token} {tokens : List Token}

theorem of_cons {height : Nat} (h : Within depth (token :: tokens))
    (hheight : depth + [token].countP (·.is "\x7b") = height + [token].countP (·.is "\x7d")) :
    Within height tokens := by
  intro front hfront
  have hcount := h (token :: front) (List.prefix_cons_inj token |>.mpr hfront)
  rw [← List.singleton_append, List.countP_append, List.countP_append] at hcount
  omega

theorem cons {height : Nat} (h : Within height tokens)
    (hheight : depth + [token].countP (·.is "\x7b") = height + [token].countP (·.is "\x7d")) :
    Within depth (token :: tokens) := by
  rintro (_ | ⟨first, front⟩) hprefix
  · simp
  · obtain ⟨rfl, hfront⟩ := List.cons_prefix_cons.mp hprefix
    have hcount := h front hfront
    rw [← List.singleton_append, List.countP_append, List.countP_append]
    omega

theorem append {others : List Token} (h : Balanced tokens)
    (hclosed : tokens.countP (·.is "\x7b") = tokens.countP (·.is "\x7d"))
    (hothers : Balanced others) : Balanced (tokens ++ others) := by
  intro front hfront
  rcases List.prefix_or_prefix_of_prefix hfront (List.prefix_append tokens others) with
    hpart | ⟨back, rfl⟩
  · exact h front hpart
  · have hcount := hothers back ((List.prefix_append_right_inj tokens).mp hfront)
    rw [List.countP_append, List.countP_append]
    omega

end Within

/-- The brace behind balanced tokens is the one that closes the body. -/
theorem Within.braceExtent {depth : Nat} {tokens : List Token} {brace : Token}
    (h : Within depth tokens) (hbrace : brace.is "\x7d" = true) :
    Excerpt.braceExtent (depth + 1) (tokens ++ [brace]) = tokens.length + 1 := by
  induction tokens generalizing depth with
  | nil =>
    have hopen : brace.is "\x7b" = false := is_eq_false_of_is hbrace (by decide)
    rw [List.nil_append, Excerpt.braceExtent, hopen, if_neg Bool.false_ne_true, if_pos hbrace]
    split_ifs
    · rfl
    · rw [Excerpt.braceExtent]
      rfl
  | cons token tokens ih =>
    rw [List.cons_append, Excerpt.braceExtent, List.length_cons]
    by_cases hopen : token.is "\x7b" = true
    · have hclose : token.is "\x7d" = false := is_eq_false_of_is hopen (by decide)
      have hrest : Within (depth + 1) tokens := h.of_cons (by simp [hopen, hclose])
      rw [if_pos hopen, ih hrest]
    by_cases hclose : token.is "\x7d" = true
    · have hcount := h [token] ⟨tokens, rfl⟩
      simp only [List.countP_singleton, hopen, hclose, if_true, Bool.false_eq_true, if_false]
        at hcount
      obtain ⟨depth, rfl⟩ := Nat.exists_eq_add_of_le' hcount
      have hrest : Within depth tokens := h.of_cons (by simp [hopen, hclose])
      rw [if_neg hopen, if_pos hclose, if_neg (by omega), Nat.add_sub_cancel, ih hrest]
    · have hrest : Within depth tokens := h.of_cons (by simp [hopen, hclose])
      rw [if_neg hopen, if_neg hclose, ih hrest]

/-! ## The matching brace -/

/-- The brace behind the tokens closes the outermost of the `depth + 1` braces that are open before
them. -/
structure Closes (depth : Nat) (inner : List Token) (closer : Token) : Prop where
  is_closer : closer.is "\x7d" = true
  within : Within depth inner
  level : depth + inner.countP (·.is "\x7b") = inner.countP (·.is "\x7d")

namespace Closes

variable {depth height : Nat} {token closer : Token} {inner : List Token}

theorem cons (h : Closes height inner closer)
    (hheight : depth + [token].countP (·.is "\x7b") = height + [token].countP (·.is "\x7d")) :
    Closes depth (token :: inner) closer where
  is_closer := h.is_closer
  within := h.within.cons hheight
  level := by
    have hlevel := h.level
    rw [← List.singleton_append, List.countP_append, List.countP_append]
    omega

/-- Counting braces finds the matching one. -/
theorem braceExtent_eq (h : Closes depth inner closer) (rest : List Token) :
    Excerpt.braceExtent (depth + 1) (inner ++ closer :: rest) = inner.length + 1 := by
  have hopen : closer.is "\x7b" = false := is_eq_false_of_is h.is_closer (by decide)
  have hinner := h.within.braceExtent h.is_closer
  have hlevel := h.level
  have hextent :
      Excerpt.braceExtent (depth + 1) (inner ++ [closer]) = (inner ++ [closer]).length := by
    rw [hinner, List.length_append, List.length_singleton]
  have happend := Excerpt.braceExtent_append (Nat.succ_pos depth) hextent
    (by simp [hopen, h.is_closer]; omega) rest
  rwa [List.append_assoc, List.length_append] at happend

theorem exists_cons {token : Token} {tokens : List Token} {depth height : Nat}
    (hheight : depth + [token].countP (·.is "\x7b") = height + [token].countP (·.is "\x7d"))
    (h : ∃ inner closer rest, tokens = inner ++ closer :: rest ∧ Closes height inner closer) :
    ∃ inner closer rest, token :: tokens = inner ++ closer :: rest ∧ Closes depth inner closer := by
  obtain ⟨inner, closer, rest, rfl, hcloses⟩ := h
  exact ⟨token :: inner, closer, rest, rfl, hcloses.cons hheight⟩

end Closes

/-- A count of braces ends at the matching one, or else with the text. -/
theorem exists_closes_or (depth : Nat) (tokens : List Token) :
    (∃ inner closer rest, tokens = inner ++ closer :: rest ∧ Closes depth inner closer) ∨
      Excerpt.braceExtent (depth + 1) tokens = tokens.length := by
  induction tokens generalizing depth with
  | nil => exact .inr rfl
  | cons token tokens ih =>
    rw [Excerpt.braceExtent, List.length_cons]
    by_cases hopen : token.is "\x7b" = true
    · have hclose : token.is "\x7d" = false := is_eq_false_of_is hopen (by decide)
      rw [if_pos hopen]
      exact (ih (depth + 1)).imp (Closes.exists_cons (by simp [hopen, hclose])) (congrArg (· + 1))
    rw [if_neg hopen]
    by_cases hclose : token.is "\x7d" = true
    · rw [if_pos hclose]
      rcases depth with _ | depth
      · exact .inl ⟨[], token, tokens, rfl, hclose, by simp [Within], rfl⟩
      · rw [if_neg (by omega), Nat.add_sub_cancel]
        exact (ih depth).imp (Closes.exists_cons (by simp [hopen, hclose])) (congrArg (· + 1))
    · rw [if_neg hclose]
      exact (ih depth).imp (Closes.exists_cons (by simp [hopen, hclose])) (congrArg (· + 1))

end TestDouble
