import Mathlib.Data.List.Infix
import TestDouble.Proofs.Token.Spells
import TestDouble.Token.Spacing

/-!
# Joined tokens scan again

Joining drops the blank at many joints, and the blanks and comments that stood there in the source
are forgotten. What is joined still falls apart at the same places, unless the source kept two
tokens apart that are one symbol, or one number, when they touch: `-` and `>`, two dots, a dot and
an ellipsis, and a number, a dot and a number. No other joint is at risk: what follows a token
directly is one of a few marks, which end every word and continue no symbol, or it follows a bracket
or a dot.
-/

namespace TestDouble.Token

open Text

/-! ## Tokens that must not touch -/

/-- Whether a number, a dot and a number stand in front. -/
def beginsFraction : List Token → Bool
  | whole :: dot :: part :: _ => whole.kind = .number && dot.text = "." && part.kind = .number
  | _ => false

/-- No tokens in a row are read as one when they touch. -/
structure Apart (tokens : List Token) : Prop where
  arrow : ¬ ["-", ">"] <:+: tokens.map (·.text)
  dots : ¬ [".", "."] <:+: tokens.map (·.text)
  ellipsis : ¬ [".", "..."] <:+: tokens.map (·.text)
  fraction : ∀ row ∈ tokens.tails, beginsFraction row = false

instance (tokens : List Token) : Decidable (Apart tokens) :=
  decidable_of_iff (¬ ["-", ">"] <:+: tokens.map (·.text) ∧ ¬ [".", "."] <:+: tokens.map (·.text) ∧
      ¬ [".", "..."] <:+: tokens.map (·.text) ∧ ∀ row ∈ tokens.tails, beginsFraction row = false)
    ⟨fun ⟨arrow, dots, ellipsis, fraction⟩ ↦ ⟨arrow, dots, ellipsis, fraction⟩,
      fun ⟨arrow, dots, ellipsis, fraction⟩ ↦ ⟨arrow, dots, ellipsis, fraction⟩⟩

variable {token next : Token} {tokens later : List Token}

/-- More tokens behind them do not take a fraction away. -/
theorem beginsFraction_append (row back : List Token) (h : beginsFraction row = true) :
    beginsFraction (row ++ back) = true := by
  rcases row with _ | ⟨whole, _ | ⟨dot, _ | ⟨part, row⟩⟩⟩
  · cases h
  · cases h
  · cases h
  · exact h

theorem Apart.of_isInfix (h : Apart tokens) (hpart : later <:+: tokens) : Apart later where
  arrow hpair := h.arrow (hpair.trans (hpart.map _))
  dots hpair := h.dots (hpair.trans (hpart.map _))
  ellipsis hpair := h.ellipsis (hpair.trans (hpart.map _))
  fraction row hrow := by
    obtain ⟨front, back, rfl⟩ := hpart
    obtain ⟨before, rfl⟩ := (List.mem_tails _ _).mp hrow
    have hmem : row ++ back ∈ (front ++ (before ++ row) ++ back).tails :=
      (List.mem_tails _ _).mpr ⟨front ++ before, by simp⟩
    exact Bool.eq_false_iff.mpr fun hrow ↦
      Bool.eq_false_iff.mp (h.fraction _ hmem) (beginsFraction_append row back hrow)

theorem Apart.tail (h : Apart (token :: tokens)) : Apart tokens :=
  h.of_isInfix (List.suffix_cons _ _).isInfix

/-- Behind a number and a dot stands no number. -/
theorem Apart.kind_ne_number {dot part : Token} (h : Apart (token :: dot :: part :: tokens))
    (hwhole : token.kind = .number) (hdot : dot.text = ".") : part.kind ≠ .number := by
  have hrow := h.fraction _ ((List.mem_tails _ _).mpr List.suffix_rfl)
  simpa [beginsFraction, hwhole, hdot] using hrow

private theorem pair_infix {texts : List String} (first second : String) :
    [first, second] <:+: first :: second :: texts :=
  List.IsPrefix.isInfix ⟨texts, rfl⟩

/-! ## How a token begins -/

private theorem not_isNameStart_of_isDigit {c : Char} (h : isDigit c = true) :
    ¬ (isNameStart c = true ∨ c = '$') := by
  rintro (hname | rfl)
  · simp [isNameStart, h] at hname
  · exact absurd h (by decide +kernel)

variable {kind : Kind} {c : Char} {cs tail : List Char}

theorem Spelled.eq_number (h : Spelled kind (c :: cs)) (hdigit : isDigit c = true) :
    kind = .number := by
  obtain ⟨d, ds, heq, hpiece⟩ := h
  obtain ⟨rfl, rfl⟩ := List.cons.inj heq
  have hplain : firstPiece c cs = firstToken c cs := by
    generalize cs.length = n at hpiece
    cases hpiece with
    | token hplain => exact hplain.firstPiece_eq
    | _ => exact absurd hdigit (by decide +kernel)
  have hnumber : FirstToken c cs _ _ := .number (not_isNameStart_of_isDigit hdigit) hdigit
  have heq := hpiece.eq_ok.symm.trans (hplain.trans hnumber.eq_ok)
  exact Piece.token.inj (Prod.mk.inj (Except.ok.inj heq)).1

/-- The tokens that begin with a dot. -/
theorem Spelled.eq_dots (h : Spelled kind ('.' :: cs)) : cs = [] ∨ cs = ['.', '.'] := by
  obtain ⟨d, ds, heq, hpiece⟩ := h
  obtain ⟨rfl, rfl⟩ := List.cons.inj heq
  generalize hn : cs.length = n at hpiece
  cases hpiece with
  | token _ htoken =>
    generalize hpiece : Piece.token kind = piece at htoken
    cases htoken with
    | name hname => exact absurd hname (by decide +kernel)
    | number _ hdigit => exact absurd hdigit (by decide +kernel)
    | compound _ hcompound =>
      obtain ⟨-, hmem⟩ := compoundExtent_eq_some_iff.mp hcompound
      rw [← hn, List.take_length] at hmem
      right
      simpa [compounds] using hmem
    | punctuation | operator => exact .inl (List.eq_nil_of_length_eq_zero hn)

private theorem not_spelled_at : ¬ Spelled kind "@".toList := by
  cases kind <;> decide +kernel

/-! ## What stands behind a token -/

/-- The characters that follow a token directly, where the token is no opening bracket or dot. -/
def jointMarks : List Char :=
  [',', ':', ')', ']', '>', '.', '?', '!', '(', '<', '[']

private theorem endsWord_jointMark (h : c ∈ jointMarks) : endsWord c = true := by
  have hall : jointMarks.all endsWord = true := by decide +kernel
  exact List.all_eq_true.mp hall c h

private theorem mem_of_not_spaced {previous current : String} (h : spaced previous current = false)
    (hprevious : previous ∉ clingsForward) : current ∈ clingsBack ++ groupOpeners := by
  rw [spaced] at h
  split_ifs at h with hclings hopener
  · exact List.mem_append_left _ (hclings.resolve_right hprevious)
  · exact List.mem_append_right _ hopener

/-- Only these texts begin with one of these marks and follow a token directly. -/
theorem head_mem_jointMarks {current : String} (h : current ∈ clingsBack ++ groupOpeners) :
    ∃ d ds, current.toList = d :: ds ∧ d ∈ jointMarks ∧ (d = '>' → current = ">") ∧
      (d = '.' → ds = [] ∧ current = "." ∨ ds = ['.', '.']) := by
  simp only [clingsBack, groupOpeners, List.cons_append, List.nil_append, List.mem_cons,
    List.not_mem_nil, or_false] at h
  rcases h with rfl | rfl | rfl | rfl | rfl | rfl | rfl | rfl | rfl | rfl | rfl | rfl <;>
    exact ⟨_, _, rfl, by decide, by decide, by decide⟩

/-- What is joined behind a token is a blank or nothing, or begins with the next token. -/
theorem joinAfter_cons (previous current : String) (texts : List String) :
    joinAfter previous (current :: texts) =
      (if spaced previous current then " " else "") ++ joinTexts (current :: texts) := by
  rw [joinAfter, joinTexts, String.append_assoc]

private theorem abuts_blank {text : List Char} (h : StartsBlank tail) : Abuts kind text tail where
  word _ := h.endsToken.endsWord
  fraction _ := h.endsToken.fractionExtent
  quote _ d hd := by
    have hquote : d ∉ ['\x22'] := h.endsToken.not_mem (by decide) d hd
    simpa using hquote
  mark _ c _ := by
    have hnone : compoundExtent c [] = none := by simp [compoundExtent]
    exact compoundExtent_append_of_none hnone (h.endsToken.not_mem (by decide))
  slash _ _ d hd := by
    have hslash : d ∉ ['/', '*'] := h.endsToken.not_mem (by decide) d hd
    simpa using hslash

private theorem abuts_dot (hkind : kind ∈ [Kind.punctuation, .operator])
    (htail : ∀ d ∈ tail.head?, d ≠ '.') : Abuts kind ['.'] tail := by
  refine abuts_mark hkind fun c hc ↦ ?_
  obtain rfl := (List.cons.inj hc).1
  exact ⟨compoundExtent_dot htail, by decide⟩

/-- Behind an opening bracket anything may stand, and behind a dot whatever begins with no dot. -/
theorem abuts_clingsForward {text : String} (hspelled : Spelled kind text.toList)
    (hclings : text ∈ clingsForward) (hdot : text = "." → ∀ d ∈ tail.head?, d ≠ '.') :
    Abuts kind text.toList tail := by
  have hkind : ∀ bracket ∈ ["(", "[", "<", "."], Spelled .punctuation bracket.toList := by
    decide +kernel
  have hmark (hmem : text ∈ ["(", "[", "<", "."]) : kind ∈ [Kind.punctuation, .operator] := by
    rw [hspelled.kind_eq (hkind text hmem)]
    decide
  simp only [clingsForward, List.mem_cons, List.not_mem_nil, or_false] at hclings
  rcases hclings with rfl | rfl | rfl | rfl | rfl
  · exact abuts_closedMark (hmark (by decide)) (by decide)
  · exact abuts_closedMark (hmark (by decide)) (by decide)
  · exact abuts_closedMark (hmark (by decide)) (by decide)
  · exact abuts_dot (hmark (by decide)) (hdot rfl)
  · exact absurd hspelled not_spelled_at

/-- One of the joint marks ends what is before it, unless it makes an arrow, an ellipsis or a
fraction. -/
theorem abuts_jointMark {text : List Char} (hmark : c ∈ jointMarks)
    (hfraction : kind = .number → fractionExtent (c :: cs) = 0)
    (harrow : text = ['-'] → c ≠ '>') (hdot : text ≠ ['.']) : Abuts kind text (c :: cs) where
  word _ d hd := by
    obtain rfl := Option.some.inj hd
    exact endsWord_jointMark hmark
  fraction := hfraction
  quote _ d hd := by
    obtain rfl := Option.some.inj hd
    rintro rfl
    exact absurd hmark (by decide)
  mark _ d htext := by
    subst htext
    generalize hcs : c :: cs = tail
    fun_cases compoundExtent d tail with
    | case1 => exact absurd (List.cons.inj hcs).1 (harrow rfl)
    | case2 => exact absurd rfl hdot
    | case6 => rfl
    | _ =>
      obtain ⟨rfl, -⟩ := List.cons.inj hcs
      exact absurd hmark (by decide)
  slash _ _ d hd := by
    obtain rfl := Option.some.inj hd
    constructor <;> rintro rfl <;> exact absurd hmark (by decide)

/-- A dot begins a fraction only if the token after it is a number. -/
theorem fractionExtent_joinAfter_dot
    (hspelled : ∀ token ∈ later, Spelled token.kind token.text.toList)
    (hpart : ∀ part ∈ later.head?, part.kind ≠ .number) (htail : EndsWord tail) :
    fractionExtent ('.' :: ((joinAfter "." (later.map (·.text))).toList ++ tail)) = 0 := by
  rcases later with _ | ⟨part, later⟩
  · rcases tail with _ | ⟨d, tail⟩
    · rfl
    · have hdigit : isDigit d = false := isDigit_eq_false (htail d rfl)
      simp [joinAfter, fractionExtent, hdigit]
  · obtain ⟨d, ds, htext, hpiece⟩ := hspelled part List.mem_cons_self
    have hdigit : ¬ isDigit d = true := fun hdigit ↦
      hpart part rfl (Spelled.eq_number ⟨d, ds, rfl, hpiece⟩ hdigit)
    have hclings : spaced "." part.text = false := by simp [spaced, clingsForward]
    rw [List.map_cons, joinAfter_cons, hclings]
    simp [joinTexts, htext, fractionExtent, hdigit]

/-- An opening bracket is not continued by the next token, nor a dot that must not touch it. -/
theorem abuts_after_clingsForward (htoken : Spelled token.kind token.text.toList)
    (hnext : Spelled next.kind next.text.toList) (hapart : Apart (token :: next :: later))
    (hclings : token.text ∈ clingsForward) :
    Abuts token.kind token.text.toList (next.text.toList ++ tail) := by
  refine abuts_clingsForward htoken hclings fun hdot d hd hd' ↦ ?_
  obtain ⟨e, es, htext, hpiece⟩ := hnext
  obtain rfl : e = d := by simpa [htext] using hd
  subst hd'
  have hpair : [token.text, next.text] <:+: (token :: next :: later).map (·.text) := pair_infix _ _
  rw [hdot] at hpair
  -- A token that begins with a dot is the dot or the ellipsis.
  rcases Spelled.eq_dots ⟨_, _, rfl, hpiece⟩ with rfl | rfl
  · obtain htext : next.text = "." := String.ext htext
    exact hapart.dots (htext ▸ hpair)
  · obtain htext : next.text = "..." := String.ext htext
    exact hapart.ellipsis (htext ▸ hpair)

/-- A token is not continued by one that is joined to it. -/
theorem abuts_before_jointMark
    (hlater : ∀ item ∈ next :: later, Spelled item.kind item.text.toList)
    (hapart : Apart (token :: next :: later)) (hclings : token.text ∉ clingsForward)
    (hjoined : spaced token.text next.text = false) (htail : EndsWord tail) :
    Abuts token.kind token.text.toList
      ((joinTexts ((next :: later).map (·.text))).toList ++ tail) := by
  have hpair : [token.text, next.text] <:+: (token :: next :: later).map (·.text) := pair_infix _ _
  obtain ⟨d, ds, htext, hjoint, harrow, hdot⟩ :=
    head_mem_jointMarks (mem_of_not_spaced hjoined hclings)
  rw [List.map_cons, joinTexts, String.toList_append, htext, List.cons_append, List.cons_append,
    List.append_assoc]
  refine abuts_jointMark hjoint (fun hnumber ↦ ?_) (fun hminus hd ↦ ?_) fun hdot ↦ ?_
  · by_cases hd : d = '.'
    · subst hd
      obtain ⟨rfl, hnext⟩ | rfl := hdot rfl
      · -- The dot would begin a fraction if a number stood behind it.
        rw [hnext]
        refine fractionExtent_joinAfter_dot (fun part hpart ↦ ?_) (fun part hpart ↦ ?_) htail
        · exact hlater part (List.mem_cons_of_mem _ hpart)
        · obtain ⟨rest, rfl⟩ := List.head?_eq_some_iff.mp hpart
          exact hapart.kind_ne_number hnumber hnext
      · rfl
    · exact fractionExtent_of_ne hd _
  · obtain hminus : token.text = "-" := String.ext hminus
    exact hapart.arrow (hminus ▸ harrow hd ▸ hpair)
  · obtain hdot : token.text = "." := String.ext hdot
    exact hclings (hdot ▸ by decide)

/-- What is joined behind a token is not read as more of it, nor what follows the last token. -/
theorem abuts_joinAfter
    (hspelled : ∀ item ∈ token :: later, Spelled item.kind item.text.toList)
    (hapart : Apart (token :: later)) (htail : EndsWord tail)
    (hlast : ∀ last ∈ (token :: later).getLast?, Abuts last.kind last.text.toList tail) :
    Abuts token.kind token.text.toList
      ((joinAfter token.text (later.map (·.text))).toList ++ tail) := by
  obtain ⟨htoken, hlater⟩ := List.forall_mem_cons.mp hspelled
  rcases later with _ | ⟨next, later⟩
  · exact hlast token rfl
  rw [List.map_cons, joinAfter_cons]
  by_cases hspaced : spaced token.text next.text = true
  · rw [if_pos hspaced]
    exact abuts_blank fun d hd ↦ by
      obtain rfl : ' ' = d := by simpa using hd
      decide
  rw [if_neg hspaced, String.empty_append]
  by_cases hclings : token.text ∈ clingsForward
  · rw [joinTexts, String.toList_append, List.append_assoc]
    exact abuts_after_clingsForward htoken (hlater next List.mem_cons_self) hapart hclings
  · exact abuts_before_jointMark hlater hapart hclings (by simpa using hspaced) htail

/-! ## The round trip -/

/-- Joined tokens are spelled out in front of what may stand behind the last of them. -/
theorem spells_joinTexts_of_abuts
    (hspelled : ∀ token ∈ tokens, Spelled token.kind token.text.toList) (hapart : Apart tokens)
    (htail : EndsWord tail)
    (hlast : ∀ last ∈ tokens.getLast?, Abuts last.kind last.text.toList tail) :
    Spells tail (joinTexts (tokens.map (·.text))).toList
      (tokens.map fun token ↦ inLine token.kind token.text) := by
  induction tokens with
  | nil => exact .nil
  | cons token later ih =>
    obtain ⟨htoken, hlater⟩ := List.forall_mem_cons.mp hspelled
    rw [List.map_cons, joinTexts, String.toList_append]
    refine .cons htoken (abuts_joinAfter hspelled hapart htail hlast) ?_
    rcases later with _ | ⟨next, later⟩
    · exact .nil
    · have hjoined := ih hlater hapart.tail hlast
      rw [List.map_cons, joinAfter_cons, String.toList_append]
      split_ifs
      · exact .blank hjoined
      · exact hjoined

/-- Joined tokens are spelled out. -/
theorem spells_joinTexts (hspelled : ∀ token ∈ tokens, Spelled token.kind token.text.toList)
    (hapart : Apart tokens) : Spells [] (joinTexts (tokens.map (·.text))).toList
      (tokens.map fun token ↦ inLine token.kind token.text) :=
  spells_joinTexts_of_abuts hspelled hapart nofun fun _ _ ↦ abuts_blank nofun

theorem map_eq_of_alike {lines : Nat → Nat → Prop} {tokens' : List Token}
    (h : List.Forall₂ (Token.Alike lines) tokens tokens') :
    tokens'.map (fun token ↦ (token.kind, token.text)) =
      tokens.map fun token ↦ (token.kind, token.text) := by
  induction h with
  | nil => rfl
  | cons hhead _ ih =>
    cases hhead
    rw [List.map_cons, List.map_cons, ih]

/-- Joined tokens scan as the same tokens and join again to the same text, unless the source keeps
some apart that are one token when they touch. -/
theorem scan_join {text : String} {tokens : Tokens} (hscan : Tokens.scan text = .ok tokens)
    (hapart : Apart tokens.items) : ∃ again, Tokens.scan (join tokens.items) = .ok again ∧
      again.items.map (fun token ↦ (token.kind, token.text)) =
        tokens.items.map (fun token ↦ (token.kind, token.text)) ∧
      join again.items = join tokens.items := by
  have hspells := spells_joinTexts (spelled_of_mem hscan) hapart
  obtain ⟨last, again, halike, hagain⟩ := hspells.exists_scan 1
  have hmap : again.map (fun token ↦ (token.kind, token.text)) =
      tokens.items.map fun token ↦ (token.kind, token.text) := by
    rw [map_eq_of_alike halike, List.map_map]
    rfl
  have htexts : again.map (·.text) = tokens.items.map (·.text) := by
    simpa [Function.comp_def] using congrArg (List.map Prod.snd) hmap
  exact ⟨⟨again, ⟨last, false⟩⟩, hagain, hmap, congrArg joinTexts htexts⟩

/-- Blanks around a dot and a comment are lost, and numbers, slashes and a string keep apart. -/
theorem scan_join_types : ∃ tokens,
    Tokens.scan "@escaping (a: [Int]?, b: 1.5 ... 2) // each\n -> \"x y\" & P . Q / / .w" =
      .ok tokens ∧ Apart tokens.items ∧
    join tokens.items = "@escaping(a: [Int]?, b: 1.5... 2) -> \"x y\" & P.Q / /.w" ∧
    ∃ again, Tokens.scan (join tokens.items) = .ok again ∧
      again.items.map (fun token ↦ (token.kind, token.text)) =
        tokens.items.map (fun token ↦ (token.kind, token.text)) ∧
      join again.items = join tokens.items := by
  obtain ⟨tokens, hscan, hapart, hjoin⟩ : ∃ tokens ∈ (Tokens.scan
      "@escaping (a: [Int]?, b: 1.5 ... 2) // each\n -> \"x y\" & P . Q / / .w").toOption,
      Apart tokens.items ∧
      join tokens.items = "@escaping(a: [Int]?, b: 1.5... 2) -> \"x y\" & P.Q / /.w" := by
    decide +kernel
  rw [Option.mem_def, Except.toOption_eq_some_iff] at hscan
  exact ⟨tokens, hscan, hapart, hjoin, scan_join hscan hapart⟩

end TestDouble.Token
