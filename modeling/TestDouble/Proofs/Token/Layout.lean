import TestDouble.Proofs.Except
import TestDouble.Proofs.Token.Piece

/-!
# Scanning loses nothing

A text that scans is its tokens with gaps between them: blanks, comments, and nothing else. The line
of a token counts the line feeds in everything before it, and a token stands on a fresh line exactly
if the gap before it breaks one. A text that does not scan has a front that does, right up to a
comment or a string that is never closed or a character that begins no token, and the fault names
the line on which that front ends.

The scanner carries the line and whether it is fresh from piece to piece, and gaps reach it in
parts. `Arranged` is the invariant: it says of the tokens still to come what is to be said of all of
them, counted from the line where the scanner stands.
-/

namespace TestDouble.Token

open Text

/-! ## Gaps -/

/-- Blanks and comments between two tokens, or, if `final`, after the last one. A comment that ends
with its line reaches up to a line feed, or to the end of the text. -/
inductive Gap (final : Bool) : List Char → Prop
  | empty : Gap final []
  | blank {c : Char} {rest : List Char} : isBlank c = true → Gap final rest → Gap final (c :: rest)
  | lineComment {body rest : List Char} : '\n' ∉ body → Gap final ('\n' :: rest) →
      Gap final ('/' :: '/' :: (body ++ '\n' :: rest))
  | lastLine {body : List Char} : final = true → '\n' ∉ body → Gap final ('/' :: '/' :: body)
  | comment {inside rest : List Char} : ClosesComment 0 inside → Gap final rest →
      Gap final ('/' :: '*' :: (inside ++ rest))

/-- The text of tokens with the gaps before them. -/
def written (pieces : List (List Char × Token)) : List Char :=
  pieces.flatMap fun (gap, token) ↦ gap ++ token.text.toList

/-- What a text consists of: its tokens, each with the gap before it, and the gap after the last. -/
structure Layout (text : List Char) (tokens : Tokens) (pieces : List (List Char × Token))
    (last : List Char) : Prop where
  tokens_eq : pieces.map Prod.snd = tokens.items
  text_eq : text = written pieces ++ last
  gap_of_mem : ∀ piece ∈ pieces, Gap false piece.1
  text_ne_empty : ∀ token ∈ tokens.items, token.text ≠ ""
  line_eq : ∀ before gap token after, pieces = before ++ (gap, token) :: after →
    token.line = 1 + (written before ++ gap).count '\n'
  freshLine_iff : ∀ piece ∈ pieces, piece.2.freshLine = true ↔ '\n' ∈ piece.1
  last_gap : Gap true last
  finish_line : tokens.finish.line = 1 + text.count '\n'
  finish_freshLine : tokens.finish.freshLine = true ↔ '\n' ∈ last

/-! ## Texts that begin with no piece -/

/-- The texts of tokens, string literals apart. -/
inductive Lexeme : List Char → Prop
  | name {c : Char} {cs : List Char} : isNameStart c = true ∨ c = '$' →
      (∀ d ∈ cs, isNameRest d = true) → Lexeme (c :: cs)
  | escapedName {cs : List Char} : ClosesName cs → Lexeme ('\x60' :: cs)
  | attributeName {c : Char} {cs : List Char} : isNameStart c = true →
      (∀ d ∈ cs, isWord d = true) → Lexeme ('@' :: c :: cs)
  | number {c : Char} {digits fraction exponent : List Char} : isDigit c = true →
      (∀ d ∈ digits, isNumberRest d = true) →
      (fraction = [] ∨ ∃ d ds, isDigit d = true ∧ (∀ d ∈ ds, isNumberRest d = true) ∧
        fraction = '.' :: d :: ds) →
      (exponent = [] ∨ ∃ e sign ds,
        (e = 'e' ∨ e = 'E') ∧ (sign = [] ∨ sign = ['+'] ∨ sign = ['-']) ∧
        ds ≠ [] ∧ (∀ d ∈ ds, isDigit d = true) ∧ exponent = e :: (sign ++ ds)) →
      Lexeme (c :: (digits ++ fraction ++ exponent))
  | symbol {text : List Char} : text ∈ compounds → Lexeme text
  | mark {c : Char} : c ∈ punctuationMarks ∨ c ∈ operatorMarks → Lexeme [c]

/-- Why no piece begins a text. -/
inductive Unscannable : Cause → List Char → Prop
  | openComment {inside : List Char} : (∀ front, front <+: inside → ¬ ClosesComment 0 front) →
      Unscannable .openComment ('/' :: '*' :: inside)
  | openMultilineString {inside : List Char} :
      (∀ front, front <+: inside → ¬ ClosesMultiline front) →
      Unscannable .openMultilineString ('\x22' :: '\x22' :: '\x22' :: inside)
  | openString {inside : List Char} : ¬ ['\x22', '\x22'] <+: inside →
      (∀ front, front <+: inside → ¬ ClosesString front) →
      Unscannable .openString ('\x22' :: inside)
  | strayCharacter {c : Char} {cs : List Char} : isBlank c = false → c ≠ '\x22' →
      (∀ front, front <+: c :: cs → ¬ Lexeme front) → Unscannable (.strayCharacter c) (c :: cs)

/-! ## The invariant -/

/-- How tokens are arranged in a text that is read from the given line on, where `fresh` tells
whether a line feed stands between that place and the token before. -/
inductive Arranged : Nat → Bool → List (List Char × Token) → List Char → Finish → Prop
  | last {line : Nat} {fresh : Bool} {gap : List Char} : Gap true gap →
      Arranged line fresh [] gap ⟨line + gap.count '\n', fresh || gap.contains '\n'⟩
  | token {line : Nat} {fresh : Bool} {gap : List Char} {kind : Kind} {c : Char} {cs : List Char}
      {pieces : List (List Char × Token)} {last : List Char} {finish : Finish} :
      Gap false gap → isBlank c = false →
      Arranged (line + (gap ++ c :: cs).count '\n') false pieces last finish →
      Arranged line fresh
        ((gap, ⟨kind, String.ofList (c :: cs), line + gap.count '\n',
          fresh || gap.contains '\n'⟩) :: pieces) last finish

/-- Puts text in front of the first gap. -/
def lengthen (text : List Char) :
    List (List Char × Token) → List Char → List (List Char × Token) × List Char
  | [], last => ([], text ++ last)
  | (gap, token) :: pieces, last => ((text ++ gap, token) :: pieces, last)

private theorem written_lengthen (text : List Char) (pieces : List (List Char × Token))
    (last : List Char) : written (lengthen text pieces last).1 ++ (lengthen text pieces last).2
      = text ++ (written pieces ++ last) := by
  cases pieces with
  | nil => rfl
  | cons piece pieces => simp [lengthen, written]

@[simp] theorem map_snd_lengthen (text : List Char) (pieces : List (List Char × Token))
    (last : List Char) : (lengthen text pieces last).1.map Prod.snd = pieces.map Prod.snd := by
  cases pieces with
  | nil => rfl
  | cons piece pieces => rfl

/-- The text before the first token goes on with the piece of a gap. -/
theorem Arranged.lengthen {line : Nat} {fresh : Bool} {text last : List Char}
    {pieces : List (List Char × Token)} {finish : Finish}
    (h : Arranged (line + text.count '\n') (fresh || text.contains '\n') pieces last finish)
    (htext : ∀ final gap tail, Gap final gap → written pieces ++ last = gap ++ tail →
      (final = false → ∃ c ∈ tail.head?, isBlank c = false) → Gap final (text ++ gap)) :
    Arranged line fresh (Token.lengthen text pieces last).1 (Token.lengthen text pieces last).2
      finish := by
  cases h with
  | last hgap =>
    have hlonger := htext true _ [] hgap (by simp [written]) (by simp)
    have harranged : Arranged line fresh [] _ _ := .last hlonger
    rw [List.count_append, ← Nat.add_assoc, List.contains_append, ← Bool.or_assoc] at harranged
    exact harranged
  | @token _ _ gap kind c cs pieces _ _ hgap hc hrest =>
    have hlonger := htext false gap (c :: cs ++ (written pieces ++ last)) hgap
      (by simp [written]) (fun _ ↦ ⟨c, rfl, hc⟩)
    have hcount := hrest
    rw [Nat.add_assoc, ← List.count_append, ← List.append_assoc] at hcount
    have harranged : Arranged line fresh ((_, ⟨kind, _, _, _⟩) :: pieces) _ _ :=
      .token hlonger hc hcount
    rw [List.count_append, ← Nat.add_assoc, List.contains_append, ← Bool.or_assoc] at harranged
    exact harranged

theorem written_cons (gap : List Char) (token : Token) (pieces : List (List Char × Token)) :
    written ((gap, token) :: pieces) = gap ++ token.text.toList ++ written pieces := by
  rw [written, List.flatMap_cons, written]

namespace Arranged

variable {line : Nat} {fresh : Bool} {pieces : List (List Char × Token)} {last : List Char}
  {finish : Finish}

theorem gap_of_mem (h : Arranged line fresh pieces last finish) :
    ∀ piece ∈ pieces, Gap false piece.1 := by
  induction h with
  | last => simp
  | token hgap _ _ ih => exact List.forall_mem_cons.mpr ⟨hgap, ih⟩

theorem text_ne_empty (h : Arranged line fresh pieces last finish) :
    ∀ piece ∈ pieces, piece.2.text ≠ "" := by
  induction h with
  | last => simp
  | @token _ _ _ _ c cs _ _ _ _ _ _ ih =>
    refine List.forall_mem_cons.mpr ⟨fun he ↦ ?_, ih⟩
    simpa using congrArg String.toList he

theorem last_gap (h : Arranged line fresh pieces last finish) : Gap true last := by
  induction h with
  | last hgap => exact hgap
  | token _ _ _ ih => exact ih

theorem line_eq (h : Arranged line fresh pieces last finish)
    {before after : List (List Char × Token)} {gap : List Char} {token : Token}
    (hpieces : pieces = before ++ (gap, token) :: after) :
    token.line = line + (written before ++ gap).count '\n' := by
  induction h generalizing before with
  | last => simp at hpieces
  | token _ _ _ ih =>
    cases before with
    | nil =>
      obtain ⟨⟨rfl, rfl⟩, -⟩ := by simpa using hpieces
      rfl
    | cons first before =>
      rw [List.cons_append] at hpieces
      obtain ⟨rfl, hrest⟩ := List.cons.inj hpieces
      rw [ih hrest, written_cons, String.toList_ofList, Nat.add_assoc, ← List.count_append,
        ← List.append_assoc]

theorem finish_line (h : Arranged line fresh pieces last finish) :
    finish.line = line + (written pieces ++ last).count '\n' := by
  induction h with
  | last => rfl
  | token _ _ _ ih =>
    rw [ih, written_cons, String.toList_ofList, Nat.add_assoc, ← List.count_append,
      ← List.append_assoc]

/-- No line break stands before the place where the scanner starts. -/
theorem freshLine_iff (h : Arranged line fresh pieces last finish) (hfresh : fresh = false) :
    ∀ piece ∈ pieces, piece.2.freshLine = true ↔ '\n' ∈ piece.1 := by
  induction h with
  | last => simp
  | token _ _ _ ih => exact List.forall_mem_cons.mpr ⟨by simp [hfresh], ih rfl⟩

theorem finish_freshLine (h : Arranged line fresh pieces last finish) (hfresh : fresh = false) :
    finish.freshLine = true ↔ '\n' ∈ last := by
  induction h with
  | last => simp [hfresh]
  | token _ _ _ ih => exact ih rfl

end Arranged

/-! ## Pieces and what they leave -/

theorem FirstToken.ne_gap {c : Char} {cs : List Char} {n : Nat} : ¬ FirstToken c cs .gap n := by
  generalize hpiece : Piece.gap = piece
  intro h
  cases h with
  | name => exact absurd hpiece (by simp [namePiece])
  | _ => exact absurd hpiece (by simp)

theorem FirstPiece.not_blank {c : Char} {cs : List Char} {kind : Kind} {n : Nat}
    (h : FirstPiece c cs (.token kind) n) : isBlank c = false := by
  cases h with
  | multiline | string => decide
  | token hplain => exact hplain.not_blank

/-- A piece of a gap, and the gap after it, are a gap. -/
theorem FirstPiece.gap_append {c : Char} {cs : List Char} {n : Nat} (h : FirstPiece c cs .gap n)
    {final : Bool} {gap tail : List Char} (hgap : Gap final gap) (hdrop : cs.drop n = gap ++ tail)
    (htail : final = false → ∃ c ∈ tail.head?, isBlank c = false) :
    Gap final (c :: cs.take n ++ gap) := by
  cases h with
  | blank hblank => exact .blank hblank hgap
  | @lineComment cs =>
    set body := cs.takeWhile (· ≠ '\n') with hbody
    have hline : '\n' ∉ body := fun hmem ↦ by simpa using List.mem_takeWhile_imp hmem
    have htake : ('/' :: cs).take (countWhile (· ≠ '\n') ('/' :: cs)) = '/' :: body := by
      rw [take_countWhile, List.takeWhile_cons_of_pos (by decide)]
    rw [drop_countWhile] at hdrop
    rw [htake]
    -- The comment ends at a line feed, or it is the last of the gap.
    cases gap with
    | nil =>
      rw [List.append_nil]
      refine .lastLine ?_ hline
      by_contra hf
      obtain ⟨c, hc, hblank⟩ := htail (by simpa using hf)
      have hhead := List.head?_dropWhile_not (fun c ↦ decide (c ≠ '\n')) ('/' :: cs)
      rw [hdrop, List.nil_append, Option.mem_def.mp hc] at hhead
      obtain rfl : c = '\n' := by simpa using hhead
      exact absurd hblank (by decide)
    | cons g gap =>
      have hhead := List.head?_dropWhile_not (fun c ↦ decide (c ≠ '\n')) ('/' :: cs)
      rw [hdrop] at hhead
      obtain rfl : g = '\n' := by simpa using hhead
      exact .lineComment hline hgap
  | @comment cs n hextent =>
    have hcloses := (commentExtent_eq_some_iff.mp hextent).2
    rw [Nat.add_comm 1 n, List.take_succ_cons]
    exact .comment hcloses hgap
  | token _ htoken => exact absurd htoken FirstToken.ne_gap

/-- A text that scans is arranged tokens. -/
theorem exists_arranged {line : Nat} {fresh : Bool} {cs : List Char} {tokens : Tokens}
    (h : scanFrom line fresh cs = .ok tokens) :
    ∃ pieces last, pieces.map Prod.snd = tokens.items ∧ cs = written pieces ++ last ∧
      Arranged line fresh pieces last tokens.finish := by
  fun_induction scanFrom line fresh cs generalizing tokens with
  | case1 line fresh =>
    obtain rfl := Except.ok.inj h
    have hlast : Arranged line fresh [] [] _ := .last .empty
    exact ⟨[], [], rfl, rfl, by simpa using hlast⟩
  | case2 => simp at h
  | case3 line fresh c cs n text nextLine hpiece =>
    rename_i ih
    obtain ⟨pieces, last, hitems, hdrop, harranged⟩ := ih h
    have hfirst := FirstPiece.of_eq_ok hpiece
    -- A piece of a gap belongs to the gap that comes next.
    refine ⟨(lengthen text pieces last).1, (lengthen text pieces last).2, ?_, ?_, ?_⟩
    · simp [hitems]
    · rw [written_lengthen, ← hdrop, List.cons_append, List.take_append_drop]
    · refine harranged.lengthen fun final gap tail hgap htail hhead ↦ ?_
      exact hfirst.gap_append hgap (hdrop.trans htail) hhead
  | case4 line fresh c cs n text nextLine kind hpiece =>
    rename_i ih
    obtain ⟨rest, hrest, rfl⟩ := Except.map_eq_ok_iff.mp h
    obtain ⟨pieces, last, hitems, hdrop, harranged⟩ := ih hrest
    have hblank := (FirstPiece.of_eq_ok hpiece).not_blank
    refine ⟨([], ⟨kind, String.ofList text, line, fresh⟩) :: pieces, last, ?_, ?_, ?_⟩
    · rw [List.map_cons, hitems]
    · simp only [written, List.flatMap_cons, List.nil_append, String.toList_ofList] at hdrop ⊢
      rw [List.append_assoc, ← hdrop, List.cons_append, List.take_append_drop]
    · have htoken : Arranged line fresh (([], ⟨kind, _, _, _⟩) :: pieces) _ _ :=
        .token .empty hblank harranged
      rwa [List.count_nil, Nat.add_zero, List.contains_nil, Bool.or_false] at htoken

private theorem exists_layout {text : List Char} {tokens : Tokens}
    (h : scanFrom 1 false text = .ok tokens) :
    ∃ pieces last, Layout text tokens pieces last := by
  obtain ⟨pieces, last, hitems, htext, harranged⟩ := exists_arranged h
  refine ⟨pieces, last, hitems, htext, harranged.gap_of_mem, ?_, fun _ _ _ _ ↦ harranged.line_eq,
    harranged.freshLine_iff rfl, harranged.last_gap, ?_, harranged.finish_freshLine rfl⟩
  · rw [← hitems]
    exact List.forall_mem_map.mpr harranged.text_ne_empty
  · rw [harranged.finish_line, htext]

/-! ## Texts that do not scan -/

private theorem firstToken_error_cause {c : Char} {cs : List Char} {cause : Cause}
    (h : firstToken c cs = .error cause) : cause = .strayCharacter c := by
  rw [firstToken.eq_def] at h
  grind

/-- Every lexeme is the beginning of a token. -/
theorem Lexeme.exists_firstToken {c : Char} {cs front : List Char} (h : Lexeme front)
    (hfront : front <+: c :: cs) : ∃ piece n, FirstToken c cs piece n := by
  by_cases hname : isNameStart c = true ∨ c = '$'
  · exact ⟨_, _, .name hname⟩
  by_cases hdigit : isDigit c = true
  · exact ⟨_, _, .number hname hdigit⟩
  have hword : Unworded c := ⟨hname, hdigit⟩
  cases h with
  | name hstart =>
    obtain ⟨rfl, -⟩ := List.cons_prefix_cons.mp hfront
    exact absurd hstart hname
  | escapedName hcloses =>
    obtain ⟨rfl, tail, rfl⟩ := List.cons_prefix_cons.mp hfront
    exact ⟨_, _, .escapedName (escapedNameExtent_append hcloses tail)⟩
  | attributeName hstart =>
    obtain ⟨rfl, tail, rfl⟩ := List.cons_prefix_cons.mp hfront
    exact ⟨_, _, .attributeName hstart⟩
  | number hstart =>
    obtain ⟨rfl, -⟩ := List.cons_prefix_cons.mp hfront
    exact absurd hstart hdigit
  | symbol hsymbol =>
    cases front with
    | nil => simp [compounds] at hsymbol
    | cons d ds =>
      obtain ⟨rfl, tail, rfl⟩ := List.cons_prefix_cons.mp hfront
      exact ⟨_, _, .compound hword (compoundExtent_append hsymbol tail)⟩
  | @mark d hmark =>
    obtain ⟨rfl, -⟩ := List.cons_prefix_cons.mp hfront
    rcases hcompound : compoundExtent d cs with _ | n
    · by_cases hpunctuation : d ∈ punctuationMarks
      · exact ⟨_, _, .punctuation hword hcompound hpunctuation⟩
      · exact ⟨_, _, .operator hword hcompound hpunctuation (hmark.resolve_left hpunctuation)⟩
    · exact ⟨_, _, .compound hword hcompound⟩

theorem Unscannable.of_firstPiece {c : Char} {cs : List Char} {cause : Cause}
    (h : firstPiece c cs = .error cause) : Unscannable cause (c :: cs) := by
  rw [firstPiece.eq_def] at h
  split_ifs at h with hblank
  split at h
  · simp at h
  · next inside =>
    split at h
    · simp at h
    · next hextent =>
      obtain rfl := Except.error.inj h
      -- A front that closes the comment would have been found.
      refine .openComment fun front hfront hcloses ↦ ?_
      obtain ⟨tail, htail⟩ := hfront
      rw [← htail, commentExtent_append hcloses] at hextent
      cases hextent
  · next inside =>
    split at h
    · simp at h
    · next hextent =>
      obtain rfl := Except.error.inj h
      refine .openMultilineString fun front hfront hcloses ↦ ?_
      obtain ⟨tail, htail⟩ := hfront
      rw [← htail, multilineExtent_append hcloses] at hextent
      cases hextent
  · next hquotes =>
    split at h
    · simp at h
    · next hextent =>
      obtain rfl := Except.error.inj h
      refine .openString (fun hopens ↦ ?_) fun front hfront hcloses ↦ ?_
      · obtain ⟨inside, hinside⟩ := hopens
        exact hquotes inside hinside.symm
      · obtain ⟨tail, htail⟩ := hfront
        rw [← htail, stringExtent_append hcloses] at hextent
        cases hextent
  · next hquote _ _ _ =>
    obtain rfl := firstToken_error_cause h
    refine .strayCharacter (by simpa using hblank) hquote fun front hfront hlexeme ↦ ?_
    obtain ⟨piece, n, htoken⟩ := hlexeme.exists_firstToken hfront
    rw [htoken.eq_ok] at h
    cases h

/-- A piece stays as it is in front of any part of what follows it. -/
theorem FirstPiece.append_front {c : Char} {cs front rest : List Char} {piece : Piece} {n : Nat}
    (h : FirstPiece c cs piece n) (hdrop : cs.drop n = front ++ rest) :
    FirstPiece c (cs.take n ++ front) piece (cs.take n).length := by
  have htake : cs.take (n + front.length) = cs.take n ++ front := by
    rw [List.take_add, hdrop, List.take_left]
  rw [← htake, List.length_take_of_le h.le_length]
  exact h.take (Nat.le_add_right n _)

private theorem exists_scanned_front {line : Nat} {fresh : Bool} {cs : List Char} {fault : Fault}
    (h : scanFrom line fresh cs = .error fault) :
    ∃ front rest tokens, cs = front ++ rest ∧ scanFrom line fresh front = .ok tokens ∧
      fault.line? = some ((line + front.count '\n' : Nat) : Int) ∧
      Unscannable fault.cause rest := by
  fun_induction scanFrom line fresh cs generalizing fault with
  | case1 => simp at h
  | case2 line fresh c cs cause hpiece =>
    obtain rfl := Except.error.inj h
    exact ⟨[], c :: cs, ⟨[], ⟨line, fresh⟩⟩, rfl, by rw [scanFrom], by simp,
      .of_firstPiece hpiece⟩
  | case3 line fresh c cs n text nextLine hpiece =>
    rename_i ih
    obtain ⟨front, rest, tokens, hdrop, hfront, hline, hrest⟩ := ih h
    have hfirst := (FirstPiece.of_eq_ok hpiece).append_front hdrop
    refine ⟨text ++ front, rest, tokens, ?_, ?_, ?_, hrest⟩
    · rw [List.append_assoc, ← hdrop, List.cons_append, List.take_append_drop]
    · rw [scanFrom_gap hfirst, hfront]
    · rw [hline, List.count_append, ← Nat.add_assoc]
  | case4 line fresh c cs n text nextLine kind hpiece =>
    rename_i ih
    obtain ⟨front, rest, tokens, hdrop, hfront, hline, hrest⟩ := ih (Except.map_eq_error_iff.mp h)
    have hfirst := (FirstPiece.of_eq_ok hpiece).append_front hdrop
    let token : Token := ⟨kind, String.ofList text, line, fresh⟩
    refine ⟨text ++ front, rest, { tokens with items := token :: tokens.items }, ?_, ?_, ?_, hrest⟩
    · rw [List.append_assoc, ← hdrop, List.cons_append, List.take_append_drop]
    · rw [scanFrom_token hfirst, Except.map_eq_ok_iff]
      exact ⟨tokens, hfront, rfl⟩
    · rw [hline, List.count_append, ← Nat.add_assoc]

end TestDouble.Token

namespace TestDouble

open Token

/-- A text is its tokens and the gaps between them, or it has a front that is, up to where the fault
is found. -/
theorem Tokens.scan_layout (text : String) :
    match Tokens.scan text with
    | .ok tokens => ∃ pieces last, Layout text.toList tokens pieces last
    | .error fault => ∃ front rest tokens, text.toList = front ++ rest ∧
        Tokens.scan (String.ofList front) = .ok tokens ∧
        fault.line? = some ((1 + front.count '\n' : Nat) : Int) ∧ Unscannable fault.cause rest := by
  rcases hscan : Tokens.scan text with fault | tokens
  · obtain ⟨front, rest, tokens, htext, hfront, hline, hrest⟩ := exists_scanned_front hscan
    refine ⟨front, rest, tokens, htext, ?_, hline, hrest⟩
    rwa [Tokens.scan, String.toList_ofList]
  · exact exists_layout hscan

end TestDouble
