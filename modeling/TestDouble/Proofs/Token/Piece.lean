import TestDouble.Proofs.Token.Extent

/-!
# Where pieces end

The rules by which a text begins with a piece, one for each kind of piece. The scanner tries them in
a fixed order; the relations here say under which conditions each one wins, so that a fact about
pieces is shown rule by rule. The first such fact is that a piece stays as it is when the text is
cut off anywhere behind it.
-/

namespace TestDouble.Token

open Text

/-! ## Symbols of several characters -/

/-- The symbols of several characters. -/
def compounds : List (List Char) :=
  [['-', '>'], ['.', '.', '.'], ['=', '='], ['&', '&'], ['|', '|']]

theorem compoundExtent_append {c : Char} {cs : List Char} (h : c :: cs ∈ compounds)
    (tail : List Char) : compoundExtent c (cs ++ tail) = some cs.length := by
  simp only [compounds, List.mem_cons, List.cons.injEq, List.not_mem_nil, or_false] at h
  rcases h with ⟨rfl, rfl⟩ | ⟨rfl, rfl⟩ | ⟨rfl, rfl⟩ | ⟨rfl, rfl⟩ | ⟨rfl, rfl⟩ <;> rfl

theorem compoundExtent_eq_some_iff {c : Char} {cs : List Char} {n : Nat} :
    compoundExtent c cs = some n ↔ n ≤ cs.length ∧ c :: cs.take n ∈ compounds := by
  constructor
  · intro h
    fun_cases compoundExtent c cs with
    | case6 => simp_all [compoundExtent]
    | _ =>
      simp only [compoundExtent, Option.some.injEq] at h
      subst h
      simp [compounds]
  · rintro ⟨hle, h⟩
    rw [← List.take_append_drop n cs, compoundExtent_append h, List.length_take_of_le hle]

/-! ## Rules -/

/-- A text that neither a name nor a number begins. -/
structure Unworded (c : Char) : Prop where
  not_name : ¬ (isNameStart c = true ∨ c = '$')
  not_digit : ¬ isDigit c = true

/-- How a text begins with a token, where neither a blank, a comment nor a string begins. -/
inductive FirstToken : Char → List Char → Piece → Nat → Prop
  | name {c : Char} {cs : List Char} : isNameStart c = true ∨ c = '$' →
      FirstToken c cs (namePiece (c :: cs.take (countWhile isNameRest cs)))
        (countWhile isNameRest cs)
  | number {c : Char} {cs : List Char} : ¬ (isNameStart c = true ∨ c = '$') →
      isDigit c = true → FirstToken c cs (.token .number) (numberExtent cs)
  | compound {c : Char} {cs : List Char} {n : Nat} : Unworded c →
      compoundExtent c cs = some n → FirstToken c cs (.token .operator) n
  | punctuation {c : Char} {cs : List Char} : Unworded c → compoundExtent c cs = none →
      c ∈ punctuationMarks → FirstToken c cs (.token .punctuation) 0
  | operator {c : Char} {cs : List Char} : Unworded c → compoundExtent c cs = none →
      c ∉ punctuationMarks → c ∈ operatorMarks → FirstToken c cs (.token .operator) 0
  | attributeName {d : Char} {ds : List Char} : isNameStart d = true →
      FirstToken '@' (d :: ds) (.token .attribute) (1 + countWhile isWord ds)
  | escapedName {cs : List Char} {n : Nat} : escapedNameExtent cs = some n →
      FirstToken '\x60' cs (.token .identifier) n

theorem FirstToken.eq_ok {c : Char} {cs : List Char} {piece : Piece} {n : Nat}
    (h : FirstToken c cs piece n) : firstToken c cs = .ok (piece, n) := by
  cases h with
  | name hname => rw [firstToken.eq_def, if_pos hname]
  | number hname hdigit => rw [firstToken.eq_def, if_neg hname, if_pos hdigit]
  | compound hword hcompound =>
    rw [firstToken.eq_def, if_neg hword.not_name, if_neg hword.not_digit]
    simp only [hcompound]
  | punctuation hword hcompound hmark =>
    rw [firstToken.eq_def, if_neg hword.not_name, if_neg hword.not_digit]
    simp only [hcompound, if_pos hmark]
  | operator hword hcompound hmark hoperator =>
    rw [firstToken.eq_def, if_neg hword.not_name, if_neg hword.not_digit]
    simp only [hcompound, if_neg hmark, if_pos hoperator]
  | @attributeName d ds hstart =>
    have hcompound : compoundExtent '@' (d :: ds) = none := rfl
    rw [firstToken.eq_def, if_neg (by decide +kernel), if_neg (by decide +kernel)]
    simp only [hcompound]
    rw [if_neg (by decide), if_neg (by decide), if_pos hstart]
  | escapedName hname =>
    have hcompound : compoundExtent '\x60' cs = none := rfl
    rw [firstToken.eq_def, if_neg (by decide +kernel), if_neg (by decide +kernel)]
    simp only [hcompound, hname]
    rw [if_neg (by decide), if_neg (by decide)]

theorem FirstToken.of_eq_ok {c : Char} {cs : List Char} {piece : Piece} {n : Nat}
    (h : firstToken c cs = .ok (piece, n)) : FirstToken c cs piece n := by
  rw [firstToken.eq_def] at h
  by_cases hname : isNameStart c = true ∨ c = '$'
  · rw [if_pos hname] at h
    obtain ⟨rfl, rfl⟩ := Prod.mk.inj (Except.ok.inj h)
    exact .name hname
  rw [if_neg hname] at h
  by_cases hdigit : isDigit c = true
  · rw [if_pos hdigit] at h
    obtain ⟨rfl, rfl⟩ := Prod.mk.inj (Except.ok.inj h)
    exact .number hname hdigit
  rw [if_neg hdigit] at h
  rcases hcompound : compoundExtent c cs with _ | k
  · simp only [hcompound] at h
    split_ifs at h with hmark hoperator
    · obtain ⟨rfl, rfl⟩ := Prod.mk.inj (Except.ok.inj h)
      exact .punctuation ⟨hname, hdigit⟩ hcompound hmark
    · obtain ⟨rfl, rfl⟩ := Prod.mk.inj (Except.ok.inj h)
      exact .operator ⟨hname, hdigit⟩ hcompound hmark hoperator
    · split at h
      · split_ifs at h with hstart
        obtain ⟨rfl, rfl⟩ := Prod.mk.inj (Except.ok.inj h)
        exact .attributeName hstart
      · split at h
        · next hescaped =>
          obtain ⟨rfl, rfl⟩ := Prod.mk.inj (Except.ok.inj h)
          exact .escapedName hescaped
        · simp at h
      · simp at h
  · simp only [hcompound] at h
    obtain ⟨rfl, rfl⟩ := Prod.mk.inj (Except.ok.inj h)
    exact .compound ⟨hname, hdigit⟩ hcompound

theorem firstToken_eq_ok_iff {c : Char} {cs : List Char} {piece : Piece} {n : Nat} :
    firstToken c cs = .ok (piece, n) ↔ FirstToken c cs piece n :=
  ⟨.of_eq_ok, FirstToken.eq_ok⟩

/-- Where neither a blank, a string nor a comment begins. -/
structure Plain (c : Char) (cs : List Char) : Prop where
  not_blank : isBlank c = false
  not_quote : c ≠ '\x22'
  not_comment : c = '/' → ∀ d ∈ cs.head?, d ≠ '/' ∧ d ≠ '*'

/-- How a text begins with a piece. -/
inductive FirstPiece : Char → List Char → Piece → Nat → Prop
  | blank {c : Char} {cs : List Char} : isBlank c = true → FirstPiece c cs .gap 0
  | lineComment {cs : List Char} :
      FirstPiece '/' ('/' :: cs) .gap (countWhile (· ≠ '\n') ('/' :: cs))
  | comment {cs : List Char} {n : Nat} : commentExtent 0 cs = some n →
      FirstPiece '/' ('*' :: cs) .gap (1 + n)
  | multiline {cs : List Char} {n : Nat} : multilineExtent cs = some n →
      FirstPiece '\x22' ('\x22' :: '\x22' :: cs) (.token .string) (2 + n)
  | string {cs : List Char} {n : Nat} : ¬ ['\x22', '\x22'] <+: cs → stringExtent cs = some n →
      FirstPiece '\x22' cs (.token .string) n
  | token {c : Char} {cs : List Char} {piece : Piece} {n : Nat} : Plain c cs →
      FirstToken c cs piece n → FirstPiece c cs piece n

theorem Plain.firstPiece_eq {c : Char} {cs : List Char} (h : Plain c cs) :
    firstPiece c cs = firstToken c cs := by
  obtain ⟨hblank, hquote, hcomment⟩ := h
  rw [firstPiece.eq_def, if_neg (by simp [hblank])]
  split <;> simp_all

theorem FirstPiece.eq_ok {c : Char} {cs : List Char} {piece : Piece} {n : Nat}
    (h : FirstPiece c cs piece n) : firstPiece c cs = .ok (piece, n) := by
  cases h with
  | blank hblank => rw [firstPiece.eq_def, if_pos hblank]
  | lineComment => rfl
  | comment hextent =>
    rw [firstPiece.eq_def, if_neg (by decide)]
    simp only [hextent]
  | multiline hextent =>
    rw [firstPiece.eq_def, if_neg (by decide)]
    simp only [hextent]
  | string hquotes hextent =>
    rw [firstPiece.eq_def, if_neg (by decide)]
    split
    · next hslash => exact absurd hslash (by decide)
    · next hslash => exact absurd hslash (by decide)
    · next inside _ => exact absurd ⟨inside, rfl⟩ hquotes
    · simp only [hextent]
    · next hquote _ _ _ => exact absurd rfl hquote
  | token hplain htoken => rw [hplain.firstPiece_eq, htoken.eq_ok]

theorem FirstPiece.of_eq_ok {c : Char} {cs : List Char} {piece : Piece} {n : Nat}
    (h : firstPiece c cs = .ok (piece, n)) : FirstPiece c cs piece n := by
  rw [firstPiece.eq_def] at h
  split_ifs at h with hblank
  · obtain ⟨rfl, rfl⟩ := Prod.mk.inj (Except.ok.inj h)
    exact .blank hblank
  split at h
  · obtain ⟨rfl, rfl⟩ := Prod.mk.inj (Except.ok.inj h)
    exact .lineComment
  · split at h
    · next hextent =>
      obtain ⟨rfl, rfl⟩ := Prod.mk.inj (Except.ok.inj h)
      exact .comment hextent
    · simp at h
  · split at h
    · next hextent =>
      obtain ⟨rfl, rfl⟩ := Prod.mk.inj (Except.ok.inj h)
      exact .multiline hextent
    · simp at h
  · next hquotes =>
    split at h
    · next hextent =>
      obtain ⟨rfl, rfl⟩ := Prod.mk.inj (Except.ok.inj h)
      exact .string (fun ⟨inside, hinside⟩ ↦ hquotes inside hinside.symm) hextent
    · simp at h
  · next _ _ hquote hline hcomment _ =>
    refine .token ⟨by simpa using hblank, hquote, ?_⟩ (firstToken_eq_ok_iff.mp h)
    rintro rfl d hd
    obtain ⟨ds, rfl⟩ := List.head?_eq_some_iff.mp hd
    exact ⟨fun hd ↦ hline ds rfl (by rw [hd]), fun hd ↦ hcomment ds rfl (by rw [hd])⟩

/-! ## Cutting off -/

theorem FirstToken.le_length {c : Char} {cs : List Char} {piece : Piece} {n : Nat}
    (h : FirstToken c cs piece n) : n ≤ cs.length := by
  cases h with
  | name => exact countWhile_le isNameRest cs
  | number => exact numberExtent_le cs
  | compound _ hcompound => exact (compoundExtent_eq_some_iff.mp hcompound).1
  | punctuation | operator => exact Nat.zero_le _
  | @attributeName d ds =>
    have := countWhile_le isWord ds
    simp only [List.length_cons]
    omega
  | escapedName hextent => exact (escapedNameExtent_eq_some_iff.mp hextent).1

theorem FirstPiece.le_length {c : Char} {cs : List Char} {piece : Piece} {n : Nat}
    (h : FirstPiece c cs piece n) : n ≤ cs.length := by
  cases h with
  | blank => exact Nat.zero_le _
  | lineComment => exact countWhile_le _ _
  | comment hextent =>
    have := (commentExtent_eq_some_iff.mp hextent).1
    simp only [List.length_cons]
    omega
  | multiline hextent =>
    have := (multilineExtent_eq_some_iff.mp hextent).1
    simp only [List.length_cons]
    omega
  | string _ hextent => exact (stringExtent_eq_some_iff.mp hextent).1
  | token _ htoken => exact htoken.le_length

private theorem compoundExtent_take_of_none {c : Char} {cs : List Char}
    (h : compoundExtent c cs = none) (m : Nat) : compoundExtent c (cs.take m) = none := by
  rw [Option.eq_none_iff_forall_ne_some] at h ⊢
  intro n hn
  obtain ⟨hle, hmem⟩ := compoundExtent_eq_some_iff.mp hn
  rw [List.length_take] at hle
  rw [List.take_take, min_eq_left (by omega)] at hmem
  exact h n (compoundExtent_eq_some_iff.mpr ⟨by omega, hmem⟩)

theorem FirstToken.take {c : Char} {cs : List Char} {piece : Piece} {n m : Nat}
    (h : FirstToken c cs piece n) (hm : n ≤ m) : FirstToken c (cs.take m) piece n := by
  cases h with
  | name hname =>
    have htoken : FirstToken c (cs.take m) _ _ := .name hname
    rwa [countWhile_take hm, List.take_take, min_eq_left hm] at htoken
  | number hname hdigit =>
    have htoken : FirstToken c (cs.take m) _ _ := .number hname hdigit
    rwa [numberExtent_take hm] at htoken
  | compound hword hcompound =>
    have hfront := front_take (P := fun front ↦ c :: front ∈ compounds)
      (compoundExtent_eq_some_iff.mp hcompound) hm
    exact .compound hword (compoundExtent_eq_some_iff.mpr hfront)
  | punctuation hword hcompound hmark =>
    exact .punctuation hword (compoundExtent_take_of_none hcompound m) hmark
  | operator hword hcompound hmark hoperator =>
    exact .operator hword (compoundExtent_take_of_none hcompound m) hmark hoperator
  | @attributeName d ds hstart =>
    obtain ⟨k, rfl⟩ : ∃ k, m = k + 1 := ⟨m - 1, by omega⟩
    have htoken : FirstToken '@' (d :: ds.take k) _ _ := .attributeName hstart
    rwa [countWhile_take (by omega)] at htoken
  | escapedName hextent =>
    have hfront := front_take (escapedNameExtent_eq_some_iff.mp hextent) hm
    exact .escapedName (escapedNameExtent_eq_some_iff.mpr hfront)

theorem Plain.take {c : Char} {cs : List Char} (h : Plain c cs) (m : Nat) :
    Plain c (cs.take m) := by
  refine ⟨h.not_blank, h.not_quote, fun hc d hd ↦ h.not_comment hc d ?_⟩
  rcases m with _ | m
  · simp at hd
  · rwa [List.head?_take, if_neg (by omega)] at hd

/-- A piece stays as it is when the text is cut off behind it. -/
theorem FirstPiece.take {c : Char} {cs : List Char} {piece : Piece} {n m : Nat}
    (h : FirstPiece c cs piece n) (hm : n ≤ m) : FirstPiece c (cs.take m) piece n := by
  cases h with
  | blank hblank => exact .blank hblank
  | @lineComment cs =>
    obtain ⟨k, rfl⟩ : ∃ k, m = k + 1 := by
      rw [countWhile, List.takeWhile_cons_of_pos (by decide), List.length_cons] at hm
      exact ⟨m - 1, by omega⟩
    have hpiece : FirstPiece '/' ('/' :: cs.take k) _ _ := .lineComment
    rwa [← List.take_succ_cons, countWhile_take hm] at hpiece
  | @comment cs n hextent =>
    obtain ⟨k, rfl⟩ : ∃ k, m = k + 1 := ⟨m - 1, by omega⟩
    have hfront := front_take (commentExtent_eq_some_iff.mp hextent) (m := k) (by omega)
    exact .comment (commentExtent_eq_some_iff.mpr hfront)
  | @multiline cs n hextent =>
    obtain ⟨k, rfl⟩ : ∃ k, m = k + 2 := ⟨m - 2, by omega⟩
    have hfront := front_take (multilineExtent_eq_some_iff.mp hextent) (m := k) (by omega)
    exact .multiline (multilineExtent_eq_some_iff.mpr hfront)
  | string hquotes hextent =>
    have hfront := front_take (stringExtent_eq_some_iff.mp hextent) hm
    exact .string (fun hp ↦ hquotes (hp.trans (List.take_prefix m cs)))
      (stringExtent_eq_some_iff.mpr hfront)
  | token hplain htoken => exact .token (hplain.take m) (htoken.take hm)

/-! ## Scanning piece by piece -/

theorem scanFrom_gap {c : Char} {cs tail : List Char}
    (h : FirstPiece c (cs ++ tail) .gap cs.length) (line : Nat) (fresh : Bool) :
    scanFrom line fresh (c :: cs ++ tail) = scanFrom (line + (c :: cs).count '\n')
      (fresh || (c :: cs).contains '\n') tail := by
  rw [List.cons_append, scanFrom]
  simp only [h.eq_ok, List.take_left, List.drop_left]

theorem scanFrom_token {c : Char} {cs tail : List Char} {kind : Kind}
    (h : FirstPiece c (cs ++ tail) (.token kind) cs.length) (line : Nat) (fresh : Bool) :
    scanFrom line fresh (c :: cs ++ tail) =
      (scanFrom (line + (c :: cs).count '\n') false tail).map fun tokens ↦
        { tokens with items := ⟨kind, String.ofList (c :: cs), line, fresh⟩ :: tokens.items } := by
  rw [List.cons_append, scanFrom]
  simp only [h.eq_ok, List.take_left, List.drop_left]

end TestDouble.Token
