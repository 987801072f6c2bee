import TestDouble.Proofs.Token.Lines
import TestDouble.Proofs.Token.Spells

/-!
# Scanning texts in parentheses

A parenthesis is a token by itself wherever it stands, and no token goes on with it. So a text in
parentheses has the tokens of the text with one more on each side, unless the text ends inside a
comment that takes the closing parenthesis with it.
-/

namespace TestDouble

/-- The text in a number of pairs of parentheses. -/
def inParentheses (text : String) : Nat → String
  | 0 => text
  | count + 1 => "(" ++ inParentheses text count ++ ")"

namespace Token

variable {kind : Kind} {line : Nat} {fresh : Bool} {tokens : List Token} {finish : Finish}

/-- The tokens with others in front. -/
def prepend (front : List Token) (tokens : Tokens) : Tokens :=
  { tokens with items := front ++ tokens.items }

private theorem map_prepend_map (front back : List Token) (result : Except Fault Tokens) :
    (result.map (prepend back)).map (prepend front) = result.map (prepend (front ++ back)) := by
  cases result with
  | error => rfl
  | ok tokens => simp [Except.map, prepend]

/-- A mark with which no longer symbol begins is a token by itself. -/
theorem scanFrom_closedMark {c : Char} (hc : c ∈ closedMarks)
    (hkind : kind ∈ [Kind.punctuation, .operator]) (hspelled : Spelled kind [c]) (line : Nat)
    (fresh : Bool) (tail : List Char) :
    scanFrom line fresh (c :: tail) =
      (scanFrom line false tail).map (prepend [⟨kind, String.ofList [c], line, fresh⟩]) := by
  obtain ⟨d, ds, hcons, hpiece⟩ := hspelled
  obtain ⟨rfl, rfl⟩ := List.cons.inj hcons
  have hline : [c].count '\n' = 0 := by
    rw [List.count_eq_zero, List.mem_singleton]
    rintro rfl
    exact absurd hc (by decide)
  have hfirst : FirstPiece c ([] ++ tail) (.token kind) 0 :=
    hpiece.append (abuts_closedMark hkind hc)
  have hscan := scanFrom_token hfirst line fresh
  rwa [hline] at hscan

/-- The text is scanned to the tokens and ends at the given place, also in front of whatever is no
part of it. -/
def Scans (text : List Char) (tokens : List Token) (finish : Finish) : Prop :=
  ∀ tail, EndsToken tail → scanFrom 1 false (text ++ tail) =
    (scanFrom finish.line finish.freshLine tail).map (prepend tokens)

theorem scans_of_scan {text : String} {scanned : Tokens} (h : Tokens.scan text = .ok scanned)
    (hcomment : endsInLineComment text.toList = false) :
    Scans text.toList scanned.items scanned.finish := by
  intro tail htail
  exact scanFrom_append h ⟨htail, fun hends ↦ absurd hends (by simp [hcomment])⟩

/-- A parenthesis. -/
def parenthesis (text : String) (place : Finish) : Token where
  kind := .punctuation
  text := text
  line := place.line
  freshLine := place.freshLine

/-- The tokens in parentheses, the second of which stands where the tokens end. -/
def parenthesized (tokens : List Token) (finish : Finish) : List Token :=
  parenthesis "(" ⟨1, false⟩ :: (tokens ++ [parenthesis ")" finish])

namespace Scans

variable {text : String} (h : Scans text.toList tokens finish)
include h

theorem append_parenthesized (tail : List Char) :
    scanFrom 1 false (("(" ++ text ++ ")").toList ++ tail) =
      (scanFrom finish.line false tail).map (prepend (parenthesized tokens finish)) := by
  have htext : ("(" ++ text ++ ")").toList ++ tail = '(' :: (text.toList ++ ')' :: tail) := by
    simp [String.toList_append]
  have hends : EndsToken (')' :: tail) := by
    rintro _ ⟨⟩
    decide +kernel
  have hopener : Spelled .punctuation ['('] := spelled_openRound
  have hcloser : Spelled .punctuation [')'] := spelled_closeRound
  rw [htext, scanFrom_closedMark (by decide) (by decide) hopener, h _ hends,
    scanFrom_closedMark (by decide) (by decide) hcloser, map_prepend_map, map_prepend_map]
  rfl

theorem parenthesized :
    Scans ("(" ++ text ++ ")").toList (parenthesized tokens finish) ⟨finish.line, false⟩ :=
  fun tail _ ↦ h.append_parenthesized tail

end Scans

end Token

end TestDouble
