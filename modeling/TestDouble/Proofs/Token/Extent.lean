import Mathlib.Data.List.TakeWhile
import TestDouble.Token.Scan

/-!
# What closes a comment or a string

The scanner counts how far a comment or a literal goes. Here the texts that end one are described
without counting, and each count is shown to find exactly the front of the text that fits the
description. Since the description looks at nothing behind that front, a count survives whatever is
cut off or put behind it.
-/

namespace TestDouble.Token

open Text

/-! ## Descriptions -/

/-- What follows the opener of a block comment inside `depth` others, up to the end of the
outermost. Two characters that open or close a comment are never read apart. -/
inductive ClosesComment : Nat → List Char → Prop
  | outermost : ClosesComment 0 ['*', '/']
  | inner {depth : Nat} {rest : List Char} :
      ClosesComment depth rest → ClosesComment (depth + 1) ('*' :: '/' :: rest)
  | nested {depth : Nat} {rest : List Char} :
      ClosesComment (depth + 1) rest → ClosesComment depth ('/' :: '*' :: rest)
  | other {depth : Nat} {c : Char} {rest : List Char} :
      ¬ ['/', '*'] <+: c :: rest → ¬ ['*', '/'] <+: c :: rest →
      ClosesComment depth rest → ClosesComment depth (c :: rest)

/-- What follows the opening quote of a string literal on one line. -/
inductive ClosesString : List Char → Prop
  | quote : ClosesString ['\x22']
  | escaped {c : Char} {rest : List Char} : ClosesString rest → ClosesString ('\\' :: c :: rest)
  | other {c : Char} {rest : List Char} :
      c ≠ '\\' → c ≠ '\x22' → c ≠ '\n' → ClosesString rest → ClosesString (c :: rest)

/-- What follows the three opening quotes of a string literal over several lines: everything up to
the first three quotes in a row. -/
inductive ClosesMultiline : List Char → Prop
  | quotes : ClosesMultiline ['\x22', '\x22', '\x22']
  | other {c : Char} {rest : List Char} :
      ¬ ['\x22', '\x22', '\x22'] <+: c :: rest → ClosesMultiline rest → ClosesMultiline (c :: rest)

/-- What follows the opening backtick of a name. -/
def ClosesName (text : List Char) : Prop :=
  ∃ name ≠ [], (∀ c ∈ name, c ≠ '\x60' ∧ c ≠ '\n') ∧ text = name ++ ['\x60']

/-! ## Counts find the descriptions -/

theorem ClosesComment.two_le_length {depth : Nat} {text : List Char}
    (h : ClosesComment depth text) : 2 ≤ text.length := by
  induction h with
  | outermost => exact Nat.le_refl 2
  | inner _ ih | nested _ ih | other _ _ _ ih => simp only [List.length_cons]; omega

theorem ClosesMultiline.three_le_length {text : List Char} (h : ClosesMultiline text) :
    3 ≤ text.length := by
  induction h with
  | quotes => exact Nat.le_refl 3
  | other _ _ ih => simp only [List.length_cons]; omega

/-- What is no prefix of a long enough text is none once the text goes on. -/
theorem not_prefix_append {pattern text : List Char} (h : ¬ pattern <+: text)
    (hlength : pattern.length ≤ text.length) (tail : List Char) : ¬ pattern <+: text ++ tail :=
  fun hp ↦ h (List.prefix_of_prefix_length_le hp (List.prefix_append text tail) hlength)

private theorem not_prefix_take {pattern cs : List Char} {c : Char} (h : ¬ pattern <+: c :: cs)
    (n : Nat) : ¬ pattern <+: c :: cs.take n :=
  fun hp ↦ h (hp.trans (List.take_prefix (n + 1) (c :: cs)))

/-- A front that fits a description is there, whatever is put behind the text. -/
theorem front_append {P : List Char → Prop} {cs : List Char} {n : Nat}
    (h : n ≤ cs.length ∧ P (cs.take n)) (tail : List Char) :
    n ≤ (cs ++ tail).length ∧ P ((cs ++ tail).take n) := by
  rw [List.length_append, List.take_append_of_le_length h.1]
  exact ⟨Nat.le_add_right_of_le h.1, h.2⟩

/-- A front that fits a description is there when the text is cut off behind it. -/
theorem front_take {P : List Char → Prop} {cs : List Char} {n m : Nat}
    (h : n ≤ cs.length ∧ P (cs.take n)) (hm : n ≤ m) :
    n ≤ (cs.take m).length ∧ P ((cs.take m).take n) := by
  rw [List.length_take, List.take_take, min_eq_left hm]
  exact ⟨le_min hm h.1, h.2⟩

/-! ### Comments -/

private theorem commentExtent_cons_of_not_prefix {depth : Nat} {c : Char} {cs : List Char}
    (hopen : ¬ ['/', '*'] <+: c :: cs) (hclose : ¬ ['*', '/'] <+: c :: cs) :
    commentExtent depth (c :: cs) = (commentExtent depth cs).map (· + 1) := by
  rw [commentExtent]
  · rintro cs rfl rfl
    exact hopen ⟨cs, rfl⟩
  · rintro cs rfl rfl
    exact hclose ⟨cs, rfl⟩

theorem commentExtent_append {depth : Nat} {text : List Char} (h : ClosesComment depth text)
    (tail : List Char) : commentExtent depth (text ++ tail) = some text.length := by
  induction h with
  | outermost => rfl
  | inner _ ih | nested _ ih => simp [commentExtent, ih]
  | @other depth c rest hopen hclose hrest ih =>
    have hlength : 2 ≤ (c :: rest).length := by
      have := hrest.two_le_length
      simp only [List.length_cons]
      omega
    have hopen' : ¬ ['/', '*'] <+: c :: (rest ++ tail) := not_prefix_append hopen hlength tail
    have hclose' : ¬ ['*', '/'] <+: c :: (rest ++ tail) := not_prefix_append hclose hlength tail
    rw [List.cons_append, commentExtent_cons_of_not_prefix hopen' hclose', ih]
    rfl

private theorem closesComment_of_extent {depth n : Nat} {cs : List Char}
    (h : commentExtent depth cs = some n) : n ≤ cs.length ∧ ClosesComment depth (cs.take n) := by
  fun_induction commentExtent depth cs generalizing n with
  | case1 depth cs ih =>
    obtain ⟨k, hk, rfl⟩ := Option.map_eq_some_iff.mp h
    obtain ⟨hle, hcloses⟩ := ih hk
    exact ⟨by simpa using hle, .nested hcloses⟩
  | case2 cs =>
    obtain rfl : 2 = n := by simpa using h
    exact ⟨by simp, .outermost⟩
  | case3 depth cs hdepth ih =>
    obtain ⟨k, hk, rfl⟩ := Option.map_eq_some_iff.mp h
    obtain ⟨hle, hcloses⟩ := ih hk
    obtain ⟨d, rfl⟩ := Nat.exists_eq_succ_of_ne_zero hdepth
    exact ⟨by simpa using hle, .inner hcloses⟩
  | case4 depth c cs hopen hclose ih =>
    obtain ⟨k, hk, rfl⟩ := Option.map_eq_some_iff.mp h
    obtain ⟨hle, hcloses⟩ := ih hk
    have hopen' : ¬ ['/', '*'] <+: c :: cs := fun ⟨t, ht⟩ ↦
      hopen t (List.cons.inj ht).1.symm (List.cons.inj ht).2.symm
    have hclose' : ¬ ['*', '/'] <+: c :: cs := fun ⟨t, ht⟩ ↦
      hclose t (List.cons.inj ht).1.symm (List.cons.inj ht).2.symm
    exact ⟨by simpa using hle,
      .other (not_prefix_take hopen' k) (not_prefix_take hclose' k) hcloses⟩
  | case5 => simp at h

theorem commentExtent_eq_some_iff {depth n : Nat} {cs : List Char} :
    commentExtent depth cs = some n ↔ n ≤ cs.length ∧ ClosesComment depth (cs.take n) := by
  refine ⟨closesComment_of_extent, fun ⟨hle, h⟩ ↦ ?_⟩
  rw [← List.take_append_drop n cs, commentExtent_append h, List.length_take_of_le hle]

/-! ### String literals -/

private theorem stringExtent_cons_of_ne {c : Char} {cs : List Char} (hslash : c ≠ '\\')
    (hquote : c ≠ '\x22') (hline : c ≠ '\n') :
    stringExtent (c :: cs) = (stringExtent cs).map (· + 1) := by
  rw [stringExtent] <;> simp_all

theorem stringExtent_append {text : List Char} (h : ClosesString text) (tail : List Char) :
    stringExtent (text ++ tail) = some text.length := by
  induction h with
  | quote => rfl
  | escaped _ ih => simp [stringExtent, ih]
  | other hslash hquote hline _ ih =>
    rw [List.cons_append, stringExtent_cons_of_ne hslash hquote hline, ih]
    rfl

private theorem closesString_of_extent {n : Nat} {cs : List Char} (h : stringExtent cs = some n) :
    n ≤ cs.length ∧ ClosesString (cs.take n) := by
  fun_induction stringExtent cs generalizing n with
  | case1 c cs ih =>
    obtain ⟨k, hk, rfl⟩ := Option.map_eq_some_iff.mp h
    obtain ⟨hle, hcloses⟩ := ih hk
    exact ⟨by simpa using hle, .escaped hcloses⟩
  | case2 cs =>
    obtain rfl : 1 = n := by simpa using h
    exact ⟨by simp, .quote⟩
  | case3 => simp at h
  | case4 c cs hslash hquote hline ih =>
    obtain ⟨k, hk, rfl⟩ := Option.map_eq_some_iff.mp h
    obtain ⟨hle, hcloses⟩ := ih hk
    have hslash' : c ≠ '\\' := by
      rintro rfl
      cases cs with
      | nil => simp [stringExtent] at hk
      | cons d cs => exact hslash d cs rfl rfl
    exact ⟨by simpa using hle, .other hslash' hquote hline hcloses⟩
  | case5 => simp at h

theorem stringExtent_eq_some_iff {n : Nat} {cs : List Char} :
    stringExtent cs = some n ↔ n ≤ cs.length ∧ ClosesString (cs.take n) := by
  refine ⟨closesString_of_extent, fun ⟨hle, h⟩ ↦ ?_⟩
  rw [← List.take_append_drop n cs, stringExtent_append h, List.length_take_of_le hle]

/-! ### String literals over several lines -/

private theorem multilineExtent_cons_of_not_prefix {c : Char} {cs : List Char}
    (h : ¬ ['\x22', '\x22', '\x22'] <+: c :: cs) :
    multilineExtent (c :: cs) = (multilineExtent cs).map (· + 1) := by
  rw [multilineExtent]
  rintro cs rfl rfl
  exact h ⟨cs, rfl⟩

theorem multilineExtent_append {text : List Char} (h : ClosesMultiline text) (tail : List Char) :
    multilineExtent (text ++ tail) = some text.length := by
  induction h with
  | quotes => rfl
  | @other c rest hquotes hrest ih =>
    have hlength : 3 ≤ (c :: rest).length := by
      have := hrest.three_le_length
      simp only [List.length_cons]
      omega
    have hquotes' : ¬ ['\x22', '\x22', '\x22'] <+: c :: (rest ++ tail) :=
      not_prefix_append hquotes hlength tail
    rw [List.cons_append, multilineExtent_cons_of_not_prefix hquotes', ih]
    rfl

private theorem closesMultiline_of_extent {n : Nat} {cs : List Char}
    (h : multilineExtent cs = some n) : n ≤ cs.length ∧ ClosesMultiline (cs.take n) := by
  fun_induction multilineExtent cs generalizing n with
  | case1 cs =>
    obtain rfl : 3 = n := by simpa using h
    exact ⟨by simp, .quotes⟩
  | case2 c cs hquotes ih =>
    obtain ⟨k, hk, rfl⟩ := Option.map_eq_some_iff.mp h
    obtain ⟨hle, hcloses⟩ := ih hk
    have hquotes' : ¬ ['\x22', '\x22', '\x22'] <+: c :: cs := fun ⟨t, ht⟩ ↦
      hquotes t (List.cons.inj ht).1.symm (List.cons.inj ht).2.symm
    exact ⟨by simpa using hle, .other (not_prefix_take hquotes' k) hcloses⟩
  | case3 => simp at h

theorem multilineExtent_eq_some_iff {n : Nat} {cs : List Char} :
    multilineExtent cs = some n ↔ n ≤ cs.length ∧ ClosesMultiline (cs.take n) := by
  refine ⟨closesMultiline_of_extent, fun ⟨hle, h⟩ ↦ ?_⟩
  rw [← List.take_append_drop n cs, multilineExtent_append h, List.length_take_of_le hle]

/-! ### Runs of characters -/

theorem countWhile_le (p : Char → Bool) (cs : List Char) : countWhile p cs ≤ cs.length :=
  (List.takeWhile_prefix p).length_le

theorem take_countWhile (p : Char → Bool) (cs : List Char) :
    cs.take (countWhile p cs) = cs.takeWhile p :=
  (List.prefix_iff_eq_take.mp (List.takeWhile_prefix p)).symm

theorem drop_countWhile (p : Char → Bool) (cs : List Char) :
    cs.drop (countWhile p cs) = cs.dropWhile p := by
  calc cs.drop (countWhile p cs)
      = (cs.takeWhile p ++ cs.dropWhile p).drop (cs.takeWhile p).length := by
        rw [List.takeWhile_append_dropWhile, countWhile]
    _ = cs.dropWhile p := List.drop_left

theorem countWhile_take {p : Char → Bool} {cs : List Char} {m : Nat} (h : countWhile p cs ≤ m) :
    countWhile p (cs.take m) = countWhile p cs := by
  rw [countWhile, ← List.take_takeWhile, List.take_of_length_le h, countWhile]

/-- A run ends before a text that does not go on it. -/
theorem countWhile_append {p : Char → Bool} {tail : List Char}
    (h : ∀ c ∈ tail.head?, p c = false) (cs : List Char) :
    countWhile p (cs ++ tail) = countWhile p cs := by
  have htail : tail.takeWhile p = [] := by
    cases tail with
    | nil => rfl
    | cons c tail => rw [List.takeWhile_cons_of_neg (by simpa using h c rfl)]
  rw [countWhile, countWhile, List.takeWhile_append]
  split_ifs with hall
  · rw [htail, List.append_nil, hall]
  · rfl

private theorem all_take_countWhile {p : Char → Bool} {cs : List Char} {c : Char}
    (h : c ∈ cs.take (countWhile p cs)) : p c := by
  rw [take_countWhile] at h
  exact List.mem_takeWhile_imp h

/-! ### Names between backticks -/

theorem escapedNameExtent_append {text : List Char} (h : ClosesName text) (tail : List Char) :
    escapedNameExtent (text ++ tail) = some text.length := by
  obtain ⟨name, hne, hname, rfl⟩ := h
  have hcount : countWhile (fun c ↦ c ≠ '\x60' ∧ c ≠ '\n') (name ++ ['\x60'] ++ tail)
      = name.length := by
    rw [countWhile, List.append_assoc, List.takeWhile_append_of_pos (by simpa using hname)]
    simp
  rw [escapedNameExtent, hcount]
  simp [hne]

theorem closesName_of_extent {n : Nat} {cs : List Char} (h : escapedNameExtent cs = some n) :
    n ≤ cs.length ∧ ClosesName (cs.take n) := by
  rw [escapedNameExtent] at h
  set k := countWhile (fun c ↦ c ≠ '\x60' ∧ c ≠ '\n') cs with hk
  split at h
  · next hquote =>
    obtain ⟨hpos, hat⟩ := hquote
    obtain rfl : k + 1 = n := by simpa using h
    have hlt : k < cs.length := (List.getElem?_eq_some_iff.mp hat).1
    have htake : cs.take (k + 1) = cs.take k ++ ['\x60'] := by
      rw [List.take_add_one, hat]
      rfl
    refine ⟨hlt, cs.take k, ?_, fun c hc ↦ ?_, htake⟩
    · simpa [List.take_eq_nil_iff, hpos] using List.ne_nil_of_length_pos (by omega)
    · simpa using all_take_countWhile hc
  · simp at h

theorem escapedNameExtent_eq_some_iff {n : Nat} {cs : List Char} :
    escapedNameExtent cs = some n ↔ n ≤ cs.length ∧ ClosesName (cs.take n) := by
  refine ⟨closesName_of_extent, fun ⟨hle, h⟩ ↦ ?_⟩
  rw [← List.take_append_drop n cs, escapedNameExtent_append h, List.length_take_of_le hle]

/-! ### Numbers

A number looks ahead further than a name does: a dot belongs to it only before a digit, and a letter
only before a digit with or without a sign. -/

private theorem eq_cons_cons_of_take {cs rest : List Char} {m : Nat} {a b : Char}
    (h : cs.take m = a :: b :: rest) : cs = a :: b :: (rest ++ cs.drop m) := by
  rw [← List.cons_append, ← List.cons_append, ← h, List.take_append_drop]

theorem fractionExtent_of_ne {c : Char} (h : c ≠ '.') (cs : List Char) :
    fractionExtent (c :: cs) = 0 := by
  rw [fractionExtent.eq_2]
  intro d ds hds
  exact h (List.cons.inj hds).1

private theorem fractionExtent_take {cs : List Char} {m : Nat} (h : fractionExtent cs ≤ m) :
    fractionExtent (cs.take m) = fractionExtent cs := by
  fun_cases fractionExtent cs with
  | case1 d ds hdigit =>
    rw [fractionExtent, if_pos hdigit] at h
    obtain ⟨k, rfl⟩ := Nat.exists_eq_add_of_le (Nat.le_trans (Nat.le_add_right 2 _) h)
    rw [Nat.add_comm 2 k, List.take_succ_cons, List.take_succ_cons, fractionExtent, if_pos hdigit,
      countWhile_take (by omega)]
  | case2 d ds hdigit =>
    rcases m with _ | _ | m <;> simp [fractionExtent, hdigit]
  | case3 _ hcs =>
    rw [fractionExtent.eq_2]
    intro d ds hds
    exact hcs d _ (eq_cons_cons_of_take hds)

theorem exponentExtent_of_ne {e : Char} (he : ¬ (e = 'e' ∨ e = 'E')) (cs : List Char) :
    exponentExtent (e :: cs) = 0 := by
  cases cs with
  | nil => rfl
  | cons d cs => rw [exponentExtent, if_neg he]

theorem exponentExtent_signed {e sign : Char} (he : e = 'e' ∨ e = 'E')
    (hsign : sign = '+' ∨ sign = '-') (cs : List Char) :
    exponentExtent (e :: sign :: cs)
      = if countWhile isDigit cs = 0 then 0 else 2 + countWhile isDigit cs := by
  rw [exponentExtent, if_pos he, if_pos hsign]

theorem exponentExtent_unsigned {e d : Char} (he : e = 'e' ∨ e = 'E')
    (hd : ¬ (d = '+' ∨ d = '-')) (cs : List Char) :
    exponentExtent (e :: d :: cs)
      = if countWhile isDigit (d :: cs) = 0 then 0 else 1 + countWhile isDigit (d :: cs) := by
  rw [exponentExtent, if_pos he, if_neg hd]

/-- An exponent that is left out of a short text is one of no digits. -/
theorem exponentExtent_take_of_lt {cs : List Char} {m : Nat} (hm : m < 2) :
    exponentExtent (cs.take m) = 0 := by
  rcases cs with _ | ⟨e, cs⟩
  · simp [exponentExtent]
  · obtain rfl | rfl : m = 0 ∨ m = 1 := by omega
    · rfl
    · rfl

private theorem exponentExtent_take {cs : List Char} {m : Nat} (h : exponentExtent cs ≤ m) :
    exponentExtent (cs.take m) = exponentExtent cs := by
  obtain hm | ⟨k, rfl⟩ : m < 2 ∨ ∃ k, m = k + 2 :=
    (Nat.lt_or_ge m 2).imp_right fun hm ↦ ⟨m - 2, by omega⟩
  · rw [exponentExtent_take_of_lt hm]
    fun_cases exponentExtent cs with
    | case2 e sign ds he hsign n hn =>
      rw [exponentExtent_signed he hsign, if_neg hn] at h
      omega
    | case4 e d ds he hd n hn =>
      rw [exponentExtent_unsigned he hd, if_neg hn] at h
      omega
    | _ => rfl
  rcases cs with _ | ⟨e, _ | ⟨d, cs⟩⟩
  · rfl
  · rfl
  rw [List.take_succ_cons, List.take_succ_cons]
  by_cases he : e = 'e' ∨ e = 'E'
  · by_cases hd : d = '+' ∨ d = '-'
    · rw [exponentExtent_signed he hd] at h
      rw [exponentExtent_signed he hd, exponentExtent_signed he hd,
        countWhile_take (by split_ifs at h <;> omega)]
    · rw [exponentExtent_unsigned he hd] at h
      rw [exponentExtent_unsigned he hd, exponentExtent_unsigned he hd, ← List.take_succ_cons,
        countWhile_take (by split_ifs at h <;> omega)]
  · rw [exponentExtent_of_ne he, exponentExtent_of_ne he]

theorem fractionExtent_le (cs : List Char) : fractionExtent cs ≤ cs.length := by
  fun_cases fractionExtent cs with
  | case1 d ds _ =>
    have := countWhile_le isNumberRest ds
    simp only [List.length_cons]
    omega
  | _ => exact Nat.zero_le _

private theorem exponentExtent_le (cs : List Char) : exponentExtent cs ≤ cs.length := by
  fun_cases exponentExtent cs with
  | case2 e sign ds _ _ n _ =>
    have : n ≤ ds.length := countWhile_le isDigit ds
    simp only [List.length_cons]
    omega
  | case4 e d ds _ _ n _ =>
    have : n ≤ (d :: ds).length := countWhile_le isDigit (d :: ds)
    simp only [List.length_cons] at this ⊢
    omega
  | _ => exact Nat.zero_le _

theorem numberExtent_le (cs : List Char) : numberExtent cs ≤ cs.length := by
  have hdigits := countWhile_le isNumberRest cs
  have hfraction := fractionExtent_le (cs.drop (countWhile isNumberRest cs))
  have hexponent := exponentExtent_le (cs.drop (countWhile isNumberRest cs
    + fractionExtent (cs.drop (countWhile isNumberRest cs))))
  rw [List.length_drop] at hfraction hexponent
  rw [numberExtent]
  omega

theorem numberExtent_take {cs : List Char} {m : Nat} (h : numberExtent cs ≤ m) :
    numberExtent (cs.take m) = numberExtent cs := by
  rw [numberExtent] at h
  rw [numberExtent, numberExtent, countWhile_take (by omega), List.drop_take,
    fractionExtent_take (by omega), List.drop_take, exponentExtent_take (by omega)]

end TestDouble.Token
