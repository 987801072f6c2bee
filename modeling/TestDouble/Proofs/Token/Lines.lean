import TestDouble.Proofs.Token.Tail

/-!
# Scanning one text behind another

The pieces of a text do not change when another text comes behind it, unless that goes on with the
last of them. So the tokens of the one are followed by those of the other. A line break between two
texts parts them in any case. The second text is then scanned further down, which moves the lines of
its tokens, and its first token is on a fresh line.
-/

namespace TestDouble

/-! ## Moving tokens -/

/-- The token further down by a number of lines. -/
def Token.shift (count : Nat) (token : Token) : Token :=
  { token with line := token.line + count }

/-- The tokens further down by a number of lines. -/
def Tokens.shift (count : Nat) (tokens : Tokens) : Tokens where
  items := tokens.items.map (Token.shift count)
  finish := { tokens.finish with line := tokens.finish.line + count }

/-- Tokens with a line break in front of them. -/
def Token.freshen : List Token → List Token
  | [] => []
  | token :: tokens => { token with freshLine := true } :: tokens

namespace Token

variable {line : Nat} {fresh : Bool} {cs front rest : List Char} {tokens : Tokens}

theorem scanFrom_shift (count : Nat) (h : scanFrom line fresh cs = .ok tokens) :
    scanFrom (line + count) fresh cs = .ok (tokens.shift count) := by
  fun_induction scanFrom line fresh cs generalizing tokens with
  | case1 line fresh =>
    obtain rfl := Except.ok.inj h
    rw [scanFrom]
    rfl
  | case2 => simp at h
  | case3 line fresh c cs n text nextLine hpiece =>
    rename_i ih
    rw [scanFrom]
    simp only [hpiece]
    rw [Nat.add_right_comm]
    exact ih h
  | case4 line fresh c cs n text nextLine kind hpiece =>
    rename_i ih
    obtain ⟨later, hlater, rfl⟩ := Except.map_eq_ok_iff.mp h
    rw [scanFrom]
    simp only [hpiece]
    rw [Nat.add_right_comm, Except.map_eq_ok_iff]
    exact ⟨later.shift count, ih hlater, rfl⟩

/-- A line break in front of a text shows in its first token. -/
theorem scanFrom_fresh (h : scanFrom line fresh cs = .ok tokens) (hne : tokens.items ≠ []) :
    scanFrom line true cs = .ok { tokens with items := freshen tokens.items } := by
  fun_induction scanFrom line fresh cs generalizing tokens with
  | case1 line fresh =>
    obtain rfl := Except.ok.inj h
    exact absurd rfl hne
  | case2 => simp at h
  | case3 line fresh c cs n text nextLine hpiece =>
    rename_i ih
    rw [scanFrom]
    simp only [hpiece]
    exact ih h hne
  | case4 line fresh c cs n text nextLine kind hpiece =>
    obtain ⟨later, hlater, rfl⟩ := Except.map_eq_ok_iff.mp h
    rw [scanFrom]
    simp only [hpiece]
    rw [Except.map_eq_ok_iff]
    exact ⟨later, hlater, rfl⟩

/-! ## Texts one behind the other -/

/-- Whether a text ends inside a comment that goes up to the end of its line. -/
def endsInLineComment : List Char → Bool
  | [] => false
  | c :: cs =>
    match firstPiece c cs with
    | .error _ => false
    | .ok (_, n) =>
      (c = '/' && cs.head? = some '/' && n = cs.length) || endsInLineComment (cs.drop n)
termination_by cs => cs.length
decreasing_by simp only [List.length_drop, List.length_cons]; omega

/-- What comes behind a text and is no part of it. -/
structure Parted (front tail : List Char) : Prop where
  endsToken : EndsToken tail
  lineFeed : endsInLineComment front = true → ∀ d ∈ tail.head?, d = '\n'

theorem Parted.cons {c : Char} {cs tail : List Char} {piece : Piece} {n : Nat}
    (h : Parted (c :: cs) tail) (hpiece : FirstPiece c cs piece n) :
    FirstPiece c (cs.take n ++ (cs.drop n ++ tail)) piece (cs.take n).length ∧
      Parted (cs.drop n) tail := by
  have hends := h.lineFeed
  rw [endsInLineComment, hpiece.eq_ok] at hends
  simp only [Bool.or_eq_true, Bool.and_eq_true, decide_eq_true_eq] at hends
  refine ⟨?_, h.endsToken, fun hdrop ↦ hends (.inr hdrop)⟩
  rw [← List.append_assoc, List.take_append_drop, List.length_take_of_le hpiece.le_length]
  refine hpiece.append_endsToken h.endsToken fun hc hcs ↦ ?_
  rcases hpiece.le_length.lt_or_eq with hlt | hlength
  · exact .inl hlt
  · exact .inr (hends (.inl ⟨⟨hc, hcs⟩, hlength⟩))

private theorem cons_append_drop {c : Char} {cs : List Char} (n : Nat) (tail : List Char) :
    c :: cs ++ tail = c :: cs.take n ++ (cs.drop n ++ tail) := by
  rw [List.cons_append, List.cons_append, ← List.append_assoc, List.take_append_drop]

/-- The tokens of a text are followed by those of what comes behind it, which is scanned from where
the text ends. -/
theorem scanFrom_append {tail : List Char} (h : scanFrom line fresh front = .ok tokens)
    (hparted : Parted front tail) :
    scanFrom line fresh (front ++ tail) =
      (scanFrom tokens.finish.line tokens.finish.freshLine tail).map fun later ↦
        { later with items := tokens.items ++ later.items } := by
  fun_induction scanFrom line fresh front generalizing tokens with
  | case1 line fresh =>
    obtain rfl := Except.ok.inj h
    have hmap : (fun later : Tokens ↦ { later with items := [] ++ later.items }) = id := rfl
    rw [hmap, Except.map_id]
    rfl
  | case2 => simp at h
  | case3 line fresh c cs n text nextLine hpiece =>
    rename_i ih
    obtain ⟨hfirst, hdrop⟩ := hparted.cons (.of_eq_ok hpiece)
    rw [cons_append_drop n, scanFrom_gap hfirst, ih h hdrop]
  | case4 line fresh c cs n text nextLine kind hpiece =>
    rename_i ih
    obtain ⟨later, hlater, rfl⟩ := Except.map_eq_ok_iff.mp h
    obtain ⟨hfirst, hdrop⟩ := hparted.cons (.of_eq_ok hpiece)
    rw [cons_append_drop n, scanFrom_token hfirst, ih hlater hdrop]
    cases scanFrom later.finish.line later.finish.freshLine tail <;> rfl

/-- The pieces of a text are the same in front of a line break. -/
theorem scanFrom_append_lineFeed (h : scanFrom line fresh front = .ok tokens) (rest : List Char) :
    scanFrom line fresh (front ++ '\n' :: rest) =
      (scanFrom (tokens.finish.line + 1) true rest).map fun later ↦
        { later with items := tokens.items ++ later.items } := by
  have hbreak : ∀ d ∈ ('\n' :: rest).head?, d = '\n' := by
    rintro d ⟨⟩
    rfl
  have hblank : StartsBlank ('\n' :: rest) := fun d hd ↦ by rw [hbreak d hd]; decide
  have hpiece : FirstPiece '\n' ([] ++ rest) .gap 0 := .blank (by decide)
  have hnext : (tokens.finish.freshLine || ['\n'].contains '\n') = true := Bool.or_true _
  have hgap := scanFrom_gap hpiece tokens.finish.line tokens.finish.freshLine
  rw [hnext] at hgap
  rw [scanFrom_append h ⟨hblank.endsToken, fun _ ↦ hbreak⟩]
  exact congrArg _ hgap

end Token

end TestDouble
