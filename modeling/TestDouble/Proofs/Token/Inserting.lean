import TestDouble.Outcome
import TestDouble.Proofs.Token.Layout
import TestDouble.Proofs.Token.Tail

/-!
# Blanks and comments between tokens

Blanks and block comments may be put before a token or behind it, as long as a blank comes first and
no line is broken. The token before ends at the blank, and the scanner comes to the old text again
on the same line and in the same state. So it gives the same tokens, and nothing that is made from
tokens changes.

The places where tokens begin and end are those where the scanner cuts the text. The gap before such
a place cannot end with a comment that goes up to the end of its line, unless the text ends there:
then what is put in belongs to the comment.
-/

namespace TestDouble

namespace Token

open Text

/-! ## Where tokens begin and end -/

/-- Where the tokens of a text begin and end, up to the first character that begins no piece. The
end of the text is the last place. -/
def places : List Char → List (Nat × Nat)
  | [] => [(0, 0)]
  | c :: cs =>
    match firstPiece c cs with
    | .error _ => []
    | .ok (piece, n) =>
      let later := (places (cs.drop n)).map fun place ↦ (place.1 + (n + 1), place.2 + (n + 1))
      match piece with
      | .gap => later
      | .token _ => (0, n + 1) :: later
termination_by cs => cs.length
decreasing_by all_goals simp only [List.length_drop, List.length_cons]; omega

/-- The text between two positions, and the line on which it begins. -/
def standing (line : Nat) (cs : List Char) (place : Nat × Nat) : String × Nat :=
  (String.ofList ((cs.take place.2).drop place.1), line + (cs.take place.1).count '\n')

private theorem take_behind (c : Char) (cs : List Char) (n position : Nat) :
    (c :: cs).take (position + (n + 1)) = c :: cs.take n ++ (cs.drop n).take position := by
  rw [Nat.add_comm, List.take_add]
  rfl

private theorem drop_behind (c : Char) (cs : List Char) (n position : Nat) :
    (c :: cs).drop (position + (n + 1)) = (cs.drop n).drop position := by
  rw [List.drop_drop, ← Nat.add_assoc, List.drop_succ_cons, Nat.add_comm]

private theorem standing_behind (line : Nat) (c : Char) (cs : List Char) (n : Nat)
    (place : Nat × Nat) : standing line (c :: cs) (place.1 + (n + 1), place.2 + (n + 1)) =
      standing (line + (c :: cs.take n).count '\n') (cs.drop n) place := by
  rw [standing, standing, List.drop_take, List.drop_take, Nat.add_sub_add_right, drop_behind,
    take_behind, List.count_append, Nat.add_assoc]

/-- At the places stand the tokens, and at the last one nothing. -/
theorem map_standing_places {line : Nat} {fresh : Bool} {cs : List Char} {tokens : Tokens}
    (h : scanFrom line fresh cs = .ok tokens) :
    (places cs).map (standing line cs) =
      tokens.items.map (fun token ↦ (token.text, token.line)) ++ [("", tokens.finish.line)] := by
  fun_induction scanFrom line fresh cs generalizing tokens with
  | case1 line fresh =>
    obtain rfl := Except.ok.inj h
    rw [places]
    rfl
  | case2 => simp at h
  | case3 line fresh c cs n text nextLine hpiece =>
    rename_i ih
    rw [places]
    simp only [hpiece, List.map_map, Function.comp_def, standing_behind]
    exact ih h
  | case4 line fresh c cs n text nextLine kind hpiece =>
    rename_i ih
    obtain ⟨later, hlater, rfl⟩ := Except.map_eq_ok_iff.mp h
    rw [places]
    simp only [hpiece, List.map_cons, List.map_map, Function.comp_def, standing_behind,
      List.cons_append]
    rw [← ih hlater]
    rfl

/-! ## What may be put in -/

/-- Blanks and block comments that break no line, a blank first. -/
structure Filler (filler : List Char) : Prop where
  gap : Gap false filler
  oneLine : '\n' ∉ filler
  blank_first : ∃ c ∈ filler.head?, isBlank c = true

theorem Filler.startsBlank {filler : List Char} (h : Filler filler) (rest : List Char) :
    StartsBlank (filler ++ rest) := by
  obtain ⟨c, hc, hblank⟩ := h.blank_first
  obtain ⟨later, rfl⟩ := List.head?_eq_some_iff.mp hc
  rintro _ ⟨⟩
  exact hblank

/-- The text with something put in. -/
def insertAt (position : Nat) (filler cs : List Char) : List Char :=
  cs.take position ++ (filler ++ cs.drop position)

theorem insertAt_behind (position n : Nat) (filler : List Char) (c : Char) (cs : List Char) :
    insertAt (position + (n + 1)) filler (c :: cs) =
      c :: cs.take n ++ insertAt position filler (cs.drop n) := by
  rw [insertAt, insertAt, take_behind, drop_behind, List.append_assoc]

section

variable {c : Char} {cs tail filler : List Char}

/-- The scanner is in the same state behind a gap without line feeds. -/
theorem scanFrom_gap_oneLine (h : FirstPiece c (cs ++ tail) .gap cs.length)
    (hline : '\n' ∉ c :: cs) (line : Nat) (fresh : Bool) :
    scanFrom line fresh (c :: cs ++ tail) = scanFrom line fresh tail := by
  have hcontains : (c :: cs).contains '\n' = false := by simpa using hline
  rw [scanFrom_gap h, List.count_eq_zero.mpr hline, Nat.add_zero, hcontains, Bool.or_false]

private theorem scanFrom_filler (hgap : Gap false filler) (hline : '\n' ∉ filler) (line : Nat)
    (fresh : Bool) (rest : List Char) :
    scanFrom line fresh (filler ++ rest) = scanFrom line fresh rest := by
  induction hgap with
  | empty => rfl
  | @blank c gap hblank _ ih =>
    obtain ⟨hne, hgap⟩ := not_or.mp (mt List.mem_cons.mpr hline)
    have hpiece : FirstPiece c ([] ++ (gap ++ rest)) .gap 0 := .blank hblank
    exact (scanFrom_gap_oneLine hpiece (mt List.mem_singleton.mp hne) line fresh).trans (ih hgap)
  | lineComment => simp at hline
  | lastLine hfinal => cases hfinal
  | @comment inside gap hcloses _ ih =>
    rw [← List.cons_append, ← List.cons_append, List.mem_append, not_or] at hline
    have hpiece : FirstPiece '/' ('*' :: inside ++ (gap ++ rest)) .gap ('*' :: inside).length := by
      rw [List.length_cons, Nat.add_comm]
      exact .comment (commentExtent_append hcloses _)
    have hscan := scanFrom_gap_oneLine hpiece hline.1 line fresh
    rw [← List.append_assoc] at hscan
    exact hscan.trans (ih hline.2)

/-- A comment that goes up to the end of the text. -/
theorem scanFrom_lastLine {body : List Char} (hline : '\n' ∉ body) (line : Nat) (fresh : Bool) :
    scanFrom line fresh ('/' :: '/' :: body) = scanFrom line fresh [] := by
  have hall : ('/' :: body).takeWhile (· ≠ '\n') = '/' :: body := by
    rw [List.takeWhile_eq_self_iff]
    rintro d hd
    simp only [decide_eq_true_eq]
    rintro rfl
    simp [hline] at hd
  have hpiece : FirstPiece '/' ('/' :: body ++ []) .gap ('/' :: body).length := by
    have hcount : countWhile (· ≠ '\n') ('/' :: body) = ('/' :: body).length := by
      rw [countWhile, hall]
    rw [List.append_nil, ← hcount]
    exact .lineComment
  have hscan := scanFrom_gap_oneLine hpiece (by simpa using hline) line fresh
  rwa [List.append_nil] at hscan

/-! ## Pieces in front of what is put in -/

theorem FirstPiece.insertAt {piece : Piece} {n : Nat} (h : FirstPiece c cs piece n)
    (hfiller : Filler filler) (position : Nat)
    (hline : c = '/' → cs.head? = some '/' → 0 < position ∧ n < cs.length) :
    FirstPiece c (cs.take n ++ Token.insertAt position filler (cs.drop n)) piece
      (cs.take n).length := by
  have hfront := h.take (Nat.le_add_right n position)
  have hblank := hfiller.startsBlank ((cs.drop n).drop position)
  have hpiece := hfront.append_endsToken hblank.endsToken fun hc hcs ↦ by
    have hhead : cs.head? = some '/' := by
      rw [List.head?_take] at hcs
      split at hcs
      · cases hcs
      · exact hcs
    obtain ⟨hposition, hlength⟩ := hline hc hhead
    left
    rw [List.length_take]
    omega
  rw [Token.insertAt, ← List.append_assoc, ← List.take_add, List.length_take_of_le h.le_length]
  exact hpiece

private theorem pos_of_mem_places {place : Nat × Nat} (h : place ∈ places ('\n' :: cs)) :
    0 < place.1 ∧ 0 < place.2 := by
  have hpiece : FirstPiece '\n' cs .gap 0 := .blank (by decide)
  rw [places, hpiece.eq_ok] at h
  obtain ⟨_, -, rfl⟩ := List.mem_map.mp h
  exact ⟨Nat.succ_pos _, Nat.succ_pos _⟩

/-- A place behind a comment that goes up to the end of its line is on a later line, unless it is
the end of the text. -/
theorem lineComment_cases {n position : Nat} {place : Nat × Nat} (h : FirstPiece c cs .gap n)
    (hplace : place ∈ places (cs.drop n)) (hposition : position = place.1 ∨ position = place.2) :
    (c = '/' → cs.head? = some '/' → 0 < position ∧ n < cs.length) ∨
      position = 0 ∧ cs.drop n = [] ∧ ∃ body, c = '/' ∧ cs = '/' :: body ∧ '\n' ∉ body := by
  cases h with
  | blank hblank =>
    left
    rintro rfl
    exact absurd hblank (by decide)
  | comment =>
    left
    rintro - ⟨⟩
  | token _ htoken => exact absurd htoken FirstToken.ne_gap
  | @lineComment body =>
    rw [drop_countWhile] at hplace ⊢
    rcases hrest : ('/' :: body).dropWhile (· ≠ '\n') with _ | ⟨d, rest⟩
    · -- The comment takes the rest of the text, and its end is the only place left.
      right
      rw [hrest, places, List.mem_singleton] at hplace
      subst hplace
      refine ⟨by simpa using hposition, rfl, body, rfl, rfl, fun hmem ↦ ?_⟩
      have hall := List.dropWhile_eq_nil_iff.mp hrest '\n' (List.mem_cons_of_mem _ hmem)
      simp at hall
    · -- The line feed comes first, and no token begins before it.
      left
      rintro - -
      have hhead := List.head?_dropWhile_not (fun d ↦ decide (d ≠ '\n')) ('/' :: body)
      rw [hrest] at hhead
      obtain rfl : d = '\n' := by simpa using hhead
      rw [hrest] at hplace
      have hpos := pos_of_mem_places hplace
      have hlength := congrArg List.length hrest
      rw [← drop_countWhile, List.length_drop] at hlength
      refine ⟨by rcases hposition with rfl | rfl <;> omega, ?_⟩
      simp only [List.length_cons] at hlength ⊢
      omega

/-- What is put in behind the first piece is met in the rest of the text. -/
theorem scanFrom_insertAt_behind {piece : Piece} {n position : Nat}
    (hpiece : firstPiece c cs = .ok (piece, n))
    (hinsert : FirstPiece c (cs.take n ++ insertAt position filler (cs.drop n)) piece
      (cs.take n).length)
    (hrest : ∀ line fresh,
      scanFrom line fresh (insertAt position filler (cs.drop n)) = scanFrom line fresh (cs.drop n))
    (line : Nat) (fresh : Bool) :
    scanFrom line fresh (insertAt (position + (n + 1)) filler (c :: cs)) =
      scanFrom line fresh (c :: cs) := by
  rw [insertAt_behind, scanFrom.eq_def line fresh (c :: cs)]
  simp only [hpiece]
  cases piece with
  | gap => rw [scanFrom_gap hinsert, hrest]
  | token kind => rw [scanFrom_token hinsert, hrest]

theorem exists_eq_add {position count : Nat} {place : Nat × Nat}
    (h : position = place.1 + count ∨ position = place.2 + count) :
    ∃ behind, position = behind + count ∧ (behind = place.1 ∨ behind = place.2) := by
  rcases h with rfl | rfl
  · exact ⟨place.1, rfl, .inl rfl⟩
  · exact ⟨place.2, rfl, .inr rfl⟩

/-- The scanner gives the same wherever a token begins or ends. -/
theorem scanFrom_insertAt (hfiller : Filler filler) {position : Nat} {place : Nat × Nat}
    (hplace : place ∈ places cs) (hposition : position = place.1 ∨ position = place.2) (line : Nat)
    (fresh : Bool) :
    scanFrom line fresh (insertAt position filler cs) = scanFrom line fresh cs := by
  have hstart (line : Nat) (fresh : Bool) (cs : List Char) :
      scanFrom line fresh (insertAt 0 filler cs) = scanFrom line fresh cs :=
    scanFrom_filler hfiller.gap hfiller.oneLine line fresh cs
  fun_induction places cs generalizing position place line fresh with
  | case1 =>
    obtain rfl := List.mem_singleton.mp hplace
    obtain rfl : position = 0 := by simpa using hposition
    exact hstart line fresh []
  | case2 => cases hplace
  | case3 c cs n later hpiece =>
    rename_i ih
    have hfirst := FirstPiece.of_eq_ok hpiece
    obtain ⟨behind, hbehind, rfl⟩ := List.mem_map.mp hplace
    obtain ⟨inner, rfl, hinner⟩ := exists_eq_add hposition
    rcases lineComment_cases hfirst hbehind hinner with hline | ⟨rfl, hnil, body, rfl, rfl, hbody⟩
    · exact scanFrom_insertAt_behind hpiece (hfirst.insertAt hfiller inner hline)
        (ih hbehind hinner) line fresh
    · -- The text ends here, and what is put in goes on with the comment.
      have htake := List.take_append_drop n ('/' :: body)
      rw [hnil, List.append_nil] at htake
      have hlonger : '\n' ∉ body ++ filler := by
        rw [List.mem_append, not_or]
        exact ⟨hbody, hfiller.oneLine⟩
      have hinsert : insertAt (0 + (n + 1)) filler ('/' :: '/' :: body) =
          '/' :: '/' :: (body ++ filler) := by
        rw [insertAt_behind, hnil, htake]
        simp [insertAt]
      rw [hinsert, scanFrom_lastLine hlonger, scanFrom_lastLine hbody]
  | case4 c cs n later kind hpiece =>
    rename_i ih
    have hfirst := FirstPiece.of_eq_ok hpiece
    have hnone : ¬ (c = '/' ∧ cs.head? = some '/') := by
      rintro ⟨rfl, hhead⟩
      obtain ⟨body, rfl⟩ := List.head?_eq_some_iff.mp hhead
      cases hpiece
    have hinsert (position : Nat) := hfirst.insertAt hfiller position fun hc hcs ↦
      absurd ⟨hc, hcs⟩ hnone
    rcases List.mem_cons.mp hplace with rfl | hlater
    · -- In front of the token the scanner has the state that it had, and behind it the token's own.
      rcases hposition with rfl | rfl
      · exact hstart line fresh _
      · have hbehind := scanFrom_insertAt_behind hpiece (hinsert 0)
          (fun line fresh ↦ hstart line fresh _) line fresh
        rwa [Nat.zero_add] at hbehind
    · obtain ⟨behind, hbehind, rfl⟩ := List.mem_map.mp hlater
      obtain ⟨inner, rfl, hinner⟩ := exists_eq_add hposition
      exact scanFrom_insertAt_behind hpiece (hinsert inner) (ih hbehind hinner) line fresh

end

end Token

open Token

/-- Blanks and comments that are put in front of a token or behind it leave no trace. -/
theorem Tokens.scan_insertAt {text filler : String} {position : Nat} {place : Nat × Nat}
    (hplace : place ∈ places text.toList) (hposition : position = place.1 ∨ position = place.2)
    (hfiller : Filler filler.toList) :
    let longer := String.ofList (insertAt position filler.toList text.toList)
    Tokens.scan longer = Tokens.scan text ∧
      Protocol.ofText longer = Protocol.ofText text ∧
      Protocol.allOfText longer = Protocol.allOfText text ∧
      ∀ style known name,
        Outcome.ofSource style known ⟨name, longer⟩ = Outcome.ofSource style known ⟨name, text⟩ ∧
        Outcome.notices style known ⟨name, longer⟩ = Outcome.notices style known ⟨name, text⟩ := by
  intro longer
  have hscan : Tokens.scan longer = Tokens.scan text := by
    rw [Tokens.scan, Tokens.scan, String.toList_ofList]
    exact scanFrom_insertAt hfiller hplace hposition 1 false
  have hexcerpts : Excerpt.ofText longer = Excerpt.ofText text := by
    rw [Excerpt.ofText, Excerpt.ofText, hscan]
  refine ⟨hscan, ?_, ?_, fun style known name ↦ ⟨?_, ?_⟩⟩
  · rw [Protocol.ofText, Protocol.ofText, hexcerpts]
  · rw [Protocol.allOfText, Protocol.allOfText, hexcerpts]
  · rw [Outcome.ofSource, Outcome.ofSource, hexcerpts]
  · rw [Outcome.notices, Outcome.notices, hscan]

/-- A comment between an arrow and a name. -/
theorem Tokens.scan_insertAt_arrow :
    places "x->Int//end".toList = [(0, 1), (1, 3), (3, 6), (11, 11)] ∧
      Tokens.scan "x-> /**/ Int//end" = Tokens.scan "x->Int//end" := by
  have hplaces : places "x->Int//end".toList = [(0, 1), (1, 3), (3, 6), (11, 11)] := by
    decide +kernel
  have hmem : (1, 3) ∈ places "x->Int//end".toList := by
    rw [hplaces]
    decide
  have hgap : Gap false " /**/ ".toList :=
    .blank (by decide) (.comment .outermost (.blank (by decide) .empty))
  have hfiller : Filler " /**/ ".toList := ⟨hgap, by decide, ' ', rfl, by decide⟩
  exact ⟨hplaces, (Tokens.scan_insertAt hmem (.inr rfl) hfiller).1⟩

end TestDouble
