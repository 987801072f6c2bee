import TestDouble.Proofs.Reader.Basic
import TestDouble.SwiftType.Read

/-!
# The rules of the type grammar

What each rule of the type grammar reads, in terms of the tokens and of the types inside.
-/

namespace TestDouble

open Reader

variable {scope : Scope} {tokens rest : List Token}

/-! ## Pieces that are kept as text -/

theorem reads_adjoinedGroup_iff {bracket : Bracket} {text : String} :
    Reads (adjoinedGroup bracket) scope tokens text rest ↔
      (adjoins bracket.opener tokens = true ∧ ∃ inner,
        bracket.close tokens.tail = .closed inner rest ∧
        bracket.opener ++ Token.join inner ++ bracket.closer = text) ∨
      adjoins bracket.opener tokens = false ∧ "" = text ∧ tokens = rest := by
  rw [adjoinedGroup, reads_ahead_bind_iff, reads_ite_iff, reads_pure_iff, Bool.not_eq_true]
  simp only [reads_bind_iff, reads_group_iff, reads_pure_iff]
  constructor
  · rintro (⟨hadjoins, inner, _, hclose, rfl, rfl⟩ | h)
    · exact .inl ⟨hadjoins, inner, hclose, rfl⟩
    · exact .inr h
  · rintro (⟨hadjoins, inner, hclose, rfl⟩ | h)
    · exact .inl ⟨hadjoins, inner, _, hclose, rfl, rfl⟩
    · exact .inr h

theorem adjoins_of_not_stands {text : String} (h : stands [text] tokens = false) :
    adjoins text tokens = false := by
  cases tokens with
  | nil => rfl
  | cons token tokens => simp_all [stands, adjoins]

end TestDouble
