import TestDouble.Proofs.Except
import TestDouble.Proofs.Token.Piece

/-!
# What may stand behind a piece

A piece looks at the characters behind it only to find its own end, and a blank ends everything but
a comment that reaches to the end of its line, as does a bracket. So a text can be scanned up to
such a place without regard to what follows. A token that fills a text stays the first token when
the text goes on, unless what follows can be read as more of it.
-/

namespace TestDouble.Token

open Text

/-! ## Ends of words -/

/-- Whether a character ends every name and every number before it. -/
def endsWord (c : Char) : Bool :=
  !isNameRest c && !isNumberRest c

private theorem exists_mem_of_covers {ranges : Ranges} {n : Nat} (h : ranges.covers n = true) :
    ∃ range ∈ ranges, range.1 ≤ n ∧ n ≤ range.2 := by
  induction ranges with
  | nil => simp [Ranges.covers] at h
  | cons range ranges ih =>
    rw [Ranges.covers] at h
    split_ifs at h with hfirst
    rcases Bool.or_eq_true _ _ ▸ h with hlast | hrest
    · exact ⟨range, List.mem_cons_self, by omega, by simpa using hlast⟩
    · obtain ⟨range', hmem, hbounds⟩ := ih hrest
      exact ⟨range', List.mem_cons_of_mem _ hmem, hbounds⟩

private theorem not_covers_of_disjoint {ranges others : Ranges} {n : Nat}
    (hdisjoint : ∀ range ∈ ranges, ∀ other ∈ others, range.2 < other.1 ∨ other.2 < range.1)
    (h : ranges.covers n = true) : others.covers n = false := by
  by_contra hother
  obtain ⟨range, hrange, hfirst, hlast⟩ := exists_mem_of_covers h
  obtain ⟨other, hmem, hfirst', hlast'⟩ := exists_mem_of_covers (by simpa using hother)
  rcases hdisjoint range hrange other hmem with hlt | hlt <;> omega

theorem endsWord_of_isBlank {c : Char} (h : isBlank c = true) : endsWord c = true := by
  have hword : alphanumericRanges.covers c.toNat = false :=
    not_covers_of_disjoint (by decide +kernel) h
  have hdigit : digitRanges.covers c.toNat = false := not_covers_of_disjoint (by decide +kernel) h
  have hsign : c ≠ '_' ∧ c ≠ '$' := by
    constructor <;> rintro rfl <;> exact absurd h (by decide)
  simp [endsWord, isNameRest, isNumberRest, isWord, isDigit, hword, hdigit, hsign.1, hsign.2]

variable {c : Char} {cs tail : List Char}

theorem isNameRest_eq_false (h : endsWord c = true) : isNameRest c = false := by
  rw [endsWord, Bool.and_eq_true] at h
  simpa using h.1

theorem isWord_eq_false (h : endsWord c = true) : isWord c = false :=
  (Bool.or_eq_false_iff.mp (isNameRest_eq_false h)).1

private theorem isNumberRest_eq_false (h : endsWord c = true) : isNumberRest c = false := by
  rw [endsWord, Bool.and_eq_true] at h
  simpa using h.2

theorem isDigit_eq_false (h : endsWord c = true) : isDigit c = false :=
  (Bool.or_eq_false_iff.mp (isNumberRest_eq_false h)).1

private theorem not_exponentLetter (h : endsWord c = true) : ¬ (c = 'e' ∨ c = 'E') := by
  rintro (rfl | rfl) <;> exact absurd h (by decide +kernel)

/-! ## Numbers -/

theorem fractionExtent_append (hword : ∀ d ∈ tail.head?, endsWord d = true)
    (htail : fractionExtent tail = 0) (cs : List Char) :
    fractionExtent (cs ++ tail) = fractionExtent cs := by
  rcases cs with _ | ⟨c, _ | ⟨d, cs⟩⟩
  · exact htail
  · rcases tail with _ | ⟨d, tail⟩
    · rfl
    · by_cases hc : c = '.'
      · subst hc
        simp [fractionExtent, isDigit_eq_false (hword d rfl)]
      · rw [List.singleton_append, fractionExtent_of_ne hc, fractionExtent_of_ne hc]
  · by_cases hc : c = '.'
    · subst hc
      simp only [List.cons_append, fractionExtent]
      rw [countWhile_append fun e he ↦ isNumberRest_eq_false (hword e he)]
    · rw [List.cons_append, fractionExtent_of_ne hc, fractionExtent_of_ne hc]

theorem exponentExtent_append (hword : ∀ d ∈ tail.head?, endsWord d = true)
    (hsign : exponentExtent cs = cs.length ∨ ∀ d ∈ tail.head?, d ≠ '+' ∧ d ≠ '-') :
    exponentExtent (cs ++ tail) = exponentExtent cs := by
  have hdigits : ∀ ds, countWhile isDigit (ds ++ tail) = countWhile isDigit ds :=
    countWhile_append fun d hd ↦ isDigit_eq_false (hword d hd)
  rcases cs with _ | ⟨c, _ | ⟨d, cs⟩⟩
  · rcases tail with _ | ⟨d, tail⟩
    · rfl
    · exact exponentExtent_of_ne (not_exponentLetter (hword d rfl)) tail
  · rcases tail with _ | ⟨d, tail⟩
    · rfl
    -- A letter at the end makes an exponent with a sign behind it, which `hsign` excludes.
    · by_cases hc : c = 'e' ∨ c = 'E'
      · have hd : ¬ (d = '+' ∨ d = '-') := by
          rcases hsign with hlength | hsign
          · simp [exponentExtent] at hlength
          · exact not_or.mpr (hsign d rfl)
        have hnone := hdigits []
        rw [List.nil_append] at hnone
        rw [List.singleton_append, exponentExtent_unsigned hc hd, hnone]
        rfl
      · rw [List.singleton_append, exponentExtent_of_ne hc, exponentExtent_of_ne hc]
  · rw [List.cons_append, List.cons_append]
    by_cases hc : c = 'e' ∨ c = 'E'
    · by_cases hd : d = '+' ∨ d = '-'
      · rw [exponentExtent_signed hc hd, exponentExtent_signed hc hd, hdigits]
      · rw [exponentExtent_unsigned hc hd, exponentExtent_unsigned hc hd, ← List.cons_append,
          hdigits]
    · rw [exponentExtent_of_ne hc, exponentExtent_of_ne hc]

theorem numberExtent_append (hword : ∀ d ∈ tail.head?, endsWord d = true)
    (htail : fractionExtent tail = 0)
    (hsign : numberExtent cs = cs.length ∨ ∀ d ∈ tail.head?, d ≠ '+' ∧ d ≠ '-') :
    numberExtent (cs ++ tail) = numberExtent cs := by
  have hdigits : countWhile isNumberRest (cs ++ tail) = countWhile isNumberRest cs :=
    countWhile_append (fun d hd ↦ isNumberRest_eq_false (hword d hd)) cs
  have hle := countWhile_le isNumberRest cs
  have hfraction := fractionExtent_le (cs.drop (countWhile isNumberRest cs))
  rw [List.length_drop] at hfraction
  simp only [numberExtent] at hsign
  rw [numberExtent, numberExtent, hdigits, List.drop_append_of_le_length hle,
    fractionExtent_append hword htail, List.drop_append_of_le_length (by omega),
    exponentExtent_append hword]
  refine hsign.imp_left fun hlength ↦ ?_
  rw [List.length_drop]
  omega

/-! ## Symbols -/

private theorem mem_of_mem_tail_compound {text : List Char} (h : text ∈ compounds) :
    ∀ d ∈ text.tail, d ∈ ['>', '.', '=', '&', '|'] := by
  have hall : compounds.all fun text ↦ text.tail.all (['>', '.', '=', '&', '|'].contains ·) := by
    decide
  rw [List.all_eq_true] at hall
  simpa using hall text h

theorem compoundExtent_append_of_none (h : compoundExtent c cs = none)
    (htail : ∀ d ∈ tail.head?, d ∉ ['>', '.', '=', '&', '|']) :
    compoundExtent c (cs ++ tail) = none := by
  rw [Option.eq_none_iff_forall_ne_some] at h ⊢
  intro n hn
  obtain ⟨hle, hmem⟩ := compoundExtent_eq_some_iff.mp hn
  rw [List.take_append] at hmem
  by_cases hshort : n ≤ cs.length
  · rw [Nat.sub_eq_zero_of_le hshort, List.take_zero, List.append_nil] at hmem
    exact h n (compoundExtent_eq_some_iff.mpr ⟨hshort, hmem⟩)
  · obtain ⟨k, hk⟩ : ∃ k, n - cs.length = k + 1 := ⟨n - cs.length - 1, by omega⟩
    rcases tail with _ | ⟨d, tail⟩
    · rw [List.append_nil] at hle
      omega
    · refine htail d rfl (mem_of_mem_tail_compound hmem d ?_)
      rw [hk, List.take_succ_cons, List.tail_cons]
      exact List.mem_append_right _ List.mem_cons_self

/-! ## Ends of tokens -/

/-- The characters that may go on with a symbol, a number or a string, or make a comment of it. -/
def extenders : List Char :=
  ['>', '.', '=', '&', '|', '+', '-', '/', '*', '\x22']

/-- What is no part of a token before it, whatever that is. -/
def EndsToken (tail : List Char) : Prop :=
  ∀ d ∈ tail.head?, endsWord d = true ∧ d ∉ extenders

namespace EndsToken

variable (htail : EndsToken tail)
include htail

theorem endsWord : ∀ d ∈ tail.head?, endsWord d = true :=
  fun d hd ↦ (htail d hd).1

theorem not_mem {marks : List Char} (hmarks : marks ⊆ extenders) :
    ∀ d ∈ tail.head?, d ∉ marks :=
  fun d hd ↦ mt (@hmarks d) (htail d hd).2

theorem fractionExtent : fractionExtent tail = 0 := by
  rcases tail with _ | ⟨d, tail⟩
  · rfl
  · refine fractionExtent_of_ne ?_ tail
    rintro rfl
    exact (htail '.' rfl).2 (by decide)

end EndsToken

/-- What begins with a blank. -/
def StartsBlank (tail : List Char) : Prop :=
  ∀ d ∈ tail.head?, isBlank d = true

/-- A blank is none of the characters that have a meaning of their own. -/
theorem StartsBlank.endsToken (h : StartsBlank tail) : EndsToken tail := by
  intro d hd
  have hmarks : extenders.any isBlank = false := by decide
  exact ⟨endsWord_of_isBlank (h d hd), fun hmem ↦ List.any_eq_false.mp hmarks d hmem (h d hd)⟩

theorem FirstToken.append_endsToken {piece : Piece} {n : Nat} (h : FirstToken c cs piece n)
    (htail : EndsToken tail) : FirstToken c (cs ++ tail) piece n := by
  have hle := h.le_length
  cases h with
  | name hname =>
    have hcount := countWhile_append (fun d hd ↦ isNameRest_eq_false (htail.endsWord d hd)) cs
    have htoken : FirstToken c (cs ++ tail) _ _ := .name hname
    rwa [hcount, List.take_append_of_le_length hle] at htoken
  | number hname hdigit =>
    have hsign : ∀ d ∈ tail.head?, d ∉ ['+', '-'] := htail.not_mem (by decide)
    have htoken : FirstToken c (cs ++ tail) _ _ := .number hname hdigit
    rwa [numberExtent_append htail.endsWord htail.fractionExtent
      (.inr fun d hd ↦ by simpa using hsign d hd)] at htoken
  | compound hword hcompound =>
    have hfront := front_append (P := fun front ↦ c :: front ∈ compounds)
      (compoundExtent_eq_some_iff.mp hcompound) tail
    exact .compound hword (compoundExtent_eq_some_iff.mpr hfront)
  | punctuation hword hcompound hmark =>
    exact .punctuation hword
      (compoundExtent_append_of_none hcompound (htail.not_mem (by decide))) hmark
  | operator hword hcompound hmark hoperator =>
    exact .operator hword
      (compoundExtent_append_of_none hcompound (htail.not_mem (by decide))) hmark hoperator
  | @attributeName d ds hstart =>
    have hcount := countWhile_append (fun d hd ↦ isWord_eq_false (htail.endsWord d hd)) ds
    have htoken : FirstToken '@' (d :: (ds ++ tail)) _ _ := .attributeName hstart
    rwa [hcount] at htoken
  | escapedName hextent =>
    have hfront := front_append (escapedNameExtent_eq_some_iff.mp hextent) tail
    exact .escapedName (escapedNameExtent_eq_some_iff.mpr hfront)

theorem Plain.append (h : Plain c cs)
    (htail : c = '/' → cs = [] → ∀ d ∈ tail.head?, d ≠ '/' ∧ d ≠ '*') : Plain c (cs ++ tail) := by
  refine ⟨h.not_blank, h.not_quote, fun hc d hd ↦ ?_⟩
  rcases cs with _ | ⟨e, cs⟩
  · exact htail hc rfl d hd
  · exact h.not_comment hc d hd

/-- A quote pair that a text does not begin with is not made by what follows a whole literal. -/
theorem not_quotes_append {n : Nat} (hquotes : ¬ ['\x22', '\x22'] <+: cs)
    (hextent : stringExtent cs = some n) (htail : ∀ d ∈ tail.head?, d ≠ '\x22') :
    ¬ ['\x22', '\x22'] <+: cs ++ tail := by
  intro hp
  rcases cs with _ | ⟨d, _ | ⟨e, cs⟩⟩
  · simp [stringExtent] at hextent
  · obtain ⟨-, rest, hrest⟩ := List.cons_prefix_cons.mp hp
    change '\x22' :: rest = tail at hrest
    exact htail '\x22' (by rw [← hrest]; rfl) rfl
  · exact hquotes (List.prefix_of_prefix_length_le hp (List.prefix_append _ tail) (by simp))

/-- A piece stays as it is in front of what is no part of a token, except that a comment up to the
end of its line has to end before, or there. -/
theorem FirstPiece.append_endsToken {piece : Piece} {n : Nat} (h : FirstPiece c cs piece n)
    (htail : EndsToken tail)
    (hline : c = '/' → cs.head? = some '/' → n < cs.length ∨ ∀ d ∈ tail.head?, d = '\n') :
    FirstPiece c (cs ++ tail) piece n := by
  have hle := h.le_length
  cases h with
  | blank hblank => exact .blank hblank
  | @lineComment cs =>
    have hpiece : FirstPiece '/' ('/' :: (cs ++ tail)) _ _ := .lineComment
    have hcount : countWhile (· ≠ '\n') ('/' :: cs ++ tail) =
        countWhile (· ≠ '\n') ('/' :: cs) := by
      rcases hline rfl rfl with hlt | hbreak
      · rw [countWhile] at hlt
        rw [countWhile, List.takeWhile_append, if_neg hlt.ne]
        rfl
      · exact countWhile_append (fun d hd ↦ by simp [hbreak d hd]) _
    rwa [← List.cons_append, hcount] at hpiece
  | @comment cs n hextent =>
    have hfront := front_append (commentExtent_eq_some_iff.mp hextent) tail
    exact .comment (commentExtent_eq_some_iff.mpr hfront)
  | @multiline cs n hextent =>
    have hfront := front_append (multilineExtent_eq_some_iff.mp hextent) tail
    exact .multiline (multilineExtent_eq_some_iff.mpr hfront)
  | string hquotes hextent =>
    have hfront := front_append (stringExtent_eq_some_iff.mp hextent) tail
    have hquote : ∀ d ∈ tail.head?, d ∉ ['\x22'] := htail.not_mem (by decide)
    exact .string (not_quotes_append hquotes hextent fun d hd ↦ by simpa using hquote d hd)
      (stringExtent_eq_some_iff.mpr hfront)
  | token hplain htoken =>
    have hmarks : ∀ d ∈ tail.head?, d ∉ ['/', '*'] := htail.not_mem (by decide)
    exact .token (hplain.append fun _ _ d hd ↦ by simpa using hmarks d hd)
      (htoken.append_endsToken htail)

/-! ## Tokens by themselves -/

/-- A text that is a token of a kind from its first character to its last. -/
def Spelled (kind : Kind) (text : List Char) : Prop :=
  ∃ c cs, text = c :: cs ∧ FirstPiece c cs (.token kind) cs.length

theorem spelled_iff {kind : Kind} {text : List Char} : Spelled kind text ↔
    ∃ c ∈ text.head?, firstPiece c text.tail = .ok (.token kind, text.tail.length) := by
  constructor
  · rintro ⟨c, cs, rfl, hpiece⟩
    exact ⟨c, rfl, hpiece.eq_ok⟩
  · rintro ⟨c, hc, hpiece⟩
    rcases text with _ | ⟨d, cs⟩
    · cases hc
    · obtain rfl := Option.some.inj hc
      exact ⟨d, cs, rfl, .of_eq_ok hpiece⟩

-- The instance is named, as a search through all characters can also be found where it is in scope.
instance (kind : Kind) (text : List Char) : Decidable (Spelled kind text) :=
  @decidable_of_iff _ _ spelled_iff.symm (Option.decidableExistsMem text.head?)

theorem Spelled.kind_eq {kind kind' : Kind} {text : List Char} (h : Spelled kind text)
    (h' : Spelled kind' text) : kind = kind' := by
  obtain ⟨c, cs, rfl, hpiece⟩ := h
  obtain ⟨d, ds, hds, hpiece'⟩ := h'
  obtain ⟨rfl, rfl⟩ := List.cons.inj hds
  have heq := hpiece.eq_ok.symm.trans hpiece'.eq_ok
  simpa using heq

theorem text_eq_of_is {token : Token} {text : String} (h : token.is text = true) :
    token.text = text := by
  rw [Token.is, Bool.and_eq_true, decide_eq_true_eq, decide_eq_true_eq] at h
  exact h.2

theorem kind_of_is {token : Token} {kind : Kind} {text : String}
    (hspelled : Spelled token.kind token.text.toList) (his : token.is text = true)
    (htext : Spelled kind text.toList) : token.kind = kind := by
  rw [text_eq_of_is his] at hspelled
  exact hspelled.kind_eq htext

theorem spelled_openRound : Spelled .punctuation "(".toList := by decide +kernel

theorem spelled_closeRound : Spelled .punctuation ")".toList := by decide +kernel

/-- The tokens of a text are spelled as they are. -/
theorem spelled_of_mem {line : Nat} {fresh : Bool} {cs : List Char} {tokens : Tokens}
    (h : scanFrom line fresh cs = .ok tokens) :
    ∀ token ∈ tokens.items, Spelled token.kind token.text.toList := by
  fun_induction scanFrom line fresh cs generalizing tokens with
  | case1 =>
    obtain rfl := Except.ok.inj h
    simp
  | case2 => simp at h
  | case3 line fresh c cs n text nextLine hpiece =>
    rename_i ih
    exact ih h
  | case4 line fresh c cs n text nextLine kind hpiece =>
    rename_i ih
    obtain ⟨later, hlater, rfl⟩ := Except.map_eq_ok_iff.mp h
    refine List.forall_mem_cons.mpr ⟨⟨c, cs.take n, String.toList_ofList, ?_⟩, ih hlater⟩
    have hfirst := FirstPiece.of_eq_ok hpiece
    rw [List.length_take_of_le hfirst.le_length]
    exact hfirst.take (Nat.le_refl n)

end TestDouble.Token
