import TestDouble.Proofs.Reader.Alike
import TestDouble.Proofs.Token.Tail

/-!
# Writing tokens

How tokens have to be written so that scanning gives them back. Blanks may stand anywhere between
two tokens. Where none does, the second token must not be readable as more of the first, which is a
matter of the kind of the first and of a few characters at most.

The texts here are written on one line, so that no token in them begins a line.
-/

namespace TestDouble.Token

open Text

/-! ## Tokens without a blank behind them -/

/-- What may stand directly behind a token that fills `text`. -/
structure Abuts (kind : Kind) (text tail : List Char) : Prop where
  /-- Names and numbers go on to the end of the word. -/
  word : kind ∈ [.identifier, .keyword, .attribute, .number] → ∀ d ∈ tail.head?, endsWord d = true
  /-- A dot before a digit belongs to the number before it. -/
  fraction : kind = .number → fractionExtent tail = 0
  /-- Quotes add up to the opener of a literal over several lines. -/
  quote : kind = .string → ∀ d ∈ tail.head?, d ≠ '\x22'
  /-- A mark may begin a symbol of several characters. -/
  mark : kind ∈ [.punctuation, .operator] → ∀ c, text = [c] → compoundExtent c tail = none
  /-- A slash may begin a comment. -/
  slash : kind = .operator → text = ['/'] → ∀ d ∈ tail.head?, d ≠ '/' ∧ d ≠ '*'

variable {c : Char} {cs tail : List Char} {kind : Kind}

private theorem namePiece_kind {text : List Char} (h : namePiece text = .token kind) :
    kind ∈ [Kind.identifier, .keyword, .attribute, .number] := by
  rw [namePiece] at h
  split_ifs at h <;> cases h <;> decide

/-- A token that fills a text stays the first one in front of what may stand behind it. -/
theorem FirstToken.append (h : FirstToken c cs (.token kind) cs.length)
    (htail : Abuts kind (c :: cs) tail) : FirstToken c (cs ++ tail) (.token kind) cs.length := by
  generalize hn : cs.length = n at h
  generalize hpiece : Piece.token kind = piece at h
  cases h with
  | name hname =>
    have hword := htail.word (namePiece_kind hpiece.symm)
    have hcount := countWhile_append (fun d hd ↦ isNameRest_eq_false (hword d hd)) cs
    have htoken : FirstToken c (cs ++ tail) _ _ := .name hname
    rwa [hcount, List.take_append_of_le_length hn.ge] at htoken
  | number hname hdigit =>
    cases hpiece
    have hword := htail.word (by decide)
    have htoken : FirstToken c (cs ++ tail) _ _ := .number hname hdigit
    rwa [numberExtent_append hword (htail.fraction rfl) (.inl hn.symm)] at htoken
  | compound hword hcompound =>
    have hfront := front_append (P := fun front ↦ c :: front ∈ compounds)
      (compoundExtent_eq_some_iff.mp hcompound) tail
    exact .compound hword (compoundExtent_eq_some_iff.mpr hfront)
  | punctuation hword _ hmark =>
    obtain rfl := List.eq_nil_of_length_eq_zero hn
    cases hpiece
    exact .punctuation hword (htail.mark (by decide) c rfl) hmark
  | operator hword _ hmark hoperator =>
    obtain rfl := List.eq_nil_of_length_eq_zero hn
    cases hpiece
    exact .operator hword (htail.mark (by decide) c rfl) hmark hoperator
  | @attributeName d ds hstart =>
    cases hpiece
    have hword := htail.word (by decide)
    have hcount := countWhile_append (fun d hd ↦ isWord_eq_false (hword d hd)) ds
    have htoken : FirstToken '@' (d :: (ds ++ tail)) _ _ := .attributeName hstart
    rwa [hcount] at htoken
  | escapedName hextent =>
    have hfront := front_append (escapedNameExtent_eq_some_iff.mp hextent) tail
    exact .escapedName (escapedNameExtent_eq_some_iff.mpr hfront)

theorem FirstPiece.append (h : FirstPiece c cs (.token kind) cs.length)
    (htail : Abuts kind (c :: cs) tail) : FirstPiece c (cs ++ tail) (.token kind) cs.length := by
  generalize hn : cs.length = n at h
  cases h with
  | @multiline cs n hextent =>
    have hfront := front_append (multilineExtent_eq_some_iff.mp hextent) tail
    exact .multiline (multilineExtent_eq_some_iff.mpr hfront)
  | string hquotes hextent =>
    have hfront := front_append (stringExtent_eq_some_iff.mp hextent) tail
    exact .string (not_quotes_append hquotes hextent (htail.quote rfl))
      (stringExtent_eq_some_iff.mpr hfront)
  | token hplain htoken =>
    subst hn
    refine .token (hplain.append ?_) (htoken.append htail)
    rintro rfl rfl
    have hslash : firstToken '/' [] = .ok (.token .operator, 0) := by decide +kernel
    obtain rfl : kind = .operator := by
      have heq := htoken.eq_ok.symm.trans hslash
      simpa using heq
    exact htail.slash rfl rfl

/-! What may stand behind the tokens of types: whatever ends a word behind words, and anything at
all behind most marks. -/

theorem abuts_word {text : List Char} (hkind : kind ∈ [Kind.identifier, .keyword, .attribute])
    (htail : ∀ d ∈ tail.head?, endsWord d = true) : Abuts kind text tail where
  word _ := htail
  fraction hnumber := by
    rw [hnumber] at hkind
    exact absurd hkind (by decide)
  quote hstring := by
    rw [hstring] at hkind
    exact absurd hkind (by decide)
  mark hmark := by
    simp only [List.mem_cons, List.not_mem_nil, or_false] at hkind hmark
    rcases hkind with rfl | rfl | rfl <;> rcases hmark with hmark | hmark <;> cases hmark
  slash hoperator := by
    rw [hoperator] at hkind
    exact absurd hkind (by decide)

theorem abuts_mark {text : List Char} (hkind : kind ∈ [Kind.punctuation, .operator])
    (hmark : ∀ c, text = [c] → compoundExtent c tail = none ∧ c ≠ '/') : Abuts kind text tail where
  word hword := by
    simp only [List.mem_cons, List.not_mem_nil, or_false] at hkind hword
    rcases hkind with rfl | rfl <;> simp at hword
  fraction hnumber := by
    rw [hnumber] at hkind
    exact absurd hkind (by decide)
  quote hstring := by
    rw [hstring] at hkind
    exact absurd hkind (by decide)
  mark _ c htext := (hmark c htext).1
  slash _ htext := absurd rfl (hmark '/' htext).2

/-- The marks of types with which no longer symbol begins. -/
def closedMarks : List Char :=
  ['(', ')', '[', ']', '<', '>', ',', ':', '?', '!']

private theorem compoundExtent_closedMark (hc : c ∈ closedMarks) :
    compoundExtent c tail = none := by
  simp only [closedMarks, List.mem_cons, List.not_mem_nil, or_false] at hc
  rcases hc with rfl | rfl | rfl | rfl | rfl | rfl | rfl | rfl | rfl | rfl <;> rfl

theorem abuts_closedMark (hkind : kind ∈ [Kind.punctuation, .operator]) (hc : c ∈ closedMarks) :
    Abuts kind [c] tail := by
  refine abuts_mark hkind fun d hd ↦ ?_
  obtain rfl := (List.cons.inj hd).1
  refine ⟨compoundExtent_closedMark hc, ?_⟩
  rintro rfl
  exact absurd hc (by decide)

/-! ## Several tokens -/

/-- In front of `tail`, the text is scanned as the tokens. -/
inductive Spells (tail : List Char) : List Char → List Token → Prop
  | nil : Spells tail [] []
  | blank {text : List Char} {tokens : List Token} : Spells tail text tokens →
      Spells tail (' ' :: text) tokens
  | token {token : Token} {text : List Char} {tokens : List Token} :
      Spelled token.kind token.text.toList → token.freshLine = false →
      Abuts token.kind token.text.toList (text ++ tail) → Spells tail text tokens →
      Spells tail (token.text.toList ++ text) (token :: tokens)

theorem Spells.append {front back : List Char} {tokens others : List Token}
    (hfront : Spells (back ++ tail) front tokens) (hback : Spells tail back others) :
    Spells tail (front ++ back) (tokens ++ others) := by
  induction hfront with
  | nil => exact hback
  | blank _ ih => exact .blank ih
  | token hspelled hline habuts _ ih =>
    rw [List.append_assoc]
    exact .token hspelled hline (by rwa [List.append_assoc]) ih

theorem Spells.spelled {text : List Char} {tokens : List Token} (h : Spells tail text tokens) :
    ∀ token ∈ tokens, Spelled token.kind token.text.toList := by
  induction h with
  | nil => simp
  | blank _ ih => exact ih
  | token hspelled _ _ _ ih => exact List.forall_mem_cons.mpr ⟨hspelled, ih⟩

/-- Tokens that are spelled out are scanned, on whatever lines. -/
theorem Spells.exists_scanFrom {text : List Char} {tokens : List Token}
    (h : Spells tail text tokens) (line : Nat) :
    ∃ line' tokens', List.Forall₂ (Token.Alike anyLines) tokens tokens' ∧
      scanFrom line false (text ++ tail) = (scanFrom line' false tail).map fun later ↦
        { later with items := tokens' ++ later.items } := by
  induction h generalizing line with
  | nil => exact ⟨line, [], .nil, (congrFun Except.map_id _).symm⟩
  | @blank text tokens _ ih =>
    obtain ⟨line', tokens', htokens, hscan⟩ := ih line
    refine ⟨line', tokens', htokens, ?_⟩
    have hpiece : FirstPiece ' ' ([] ++ (text ++ tail)) .gap 0 := .blank (by decide)
    exact (scanFrom_gap hpiece line false).trans hscan
  | @token token text tokens hspelled hline habuts _ ih =>
    obtain ⟨c, cs, htext, hpiece⟩ := hspelled
    rw [htext] at habuts
    obtain ⟨line', tokens', htokens, hscan⟩ := ih (line + (c :: cs).count '\n')
    refine ⟨line', ⟨token.kind, token.text, line, false⟩ :: tokens', .cons ?_ htokens, ?_⟩
    · obtain ⟨kind, text, line, freshLine⟩ := token
      obtain rfl : freshLine = false := hline
      exact .intro _ _ _ trivial
    · rw [htext, List.append_assoc, List.cons_append, ← List.cons_append,
        scanFrom_token (hpiece.append habuts), hscan, ← htext, String.ofList_toList]
      cases scanFrom line' false tail <;> rfl

/-- A text that is spelled out is scanned as the same tokens. -/
theorem Spells.exists_scan {text : List Char} {tokens : List Token} (h : Spells [] text tokens)
    (line : Nat) : ∃ last again, List.Forall₂ (Token.Alike anyLines) tokens again ∧
      scanFrom line false text = .ok ⟨again, ⟨last, false⟩⟩ := by
  obtain ⟨last, again, halike, hscan⟩ := h.exists_scanFrom line
  refine ⟨last, again, halike, ?_⟩
  rw [List.append_nil] at hscan
  rw [hscan, scanFrom.eq_def]
  simp [Except.map]

/-! ## Texts made of parts -/

/-- A token amid a line. -/
def inLine (kind : Kind) (text : String) : Token where
  kind := kind
  text := text
  line := 1

@[simp] theorem kind_inLine (kind : Kind) (text : String) : (inLine kind text).kind = kind := rfl

@[simp] theorem text_inLine (kind : Kind) (text : String) : (inLine kind text).text = text := rfl

@[simp] theorem is_inLine (kind : Kind) (text other : String) :
    (inLine kind text).is other = (decide (kind ≠ .string) && decide (text = other)) := rfl

/-- Whether a character ends the word before the text, if there is one. -/
def EndsWord (text : List Char) : Prop :=
  ∀ d ∈ text.head?, endsWord d = true

theorem EndsWord.of_cons {c : Char} {text : List Char} (h : endsWord c = true) :
    EndsWord (c :: text) := by
  rintro _ ⟨⟩
  exact h

variable {text : List Char} {tokens : List Token}

theorem Spells.cons {word : String} (hspelled : Spelled kind word.toList)
    (habuts : Abuts kind word.toList (text ++ tail)) (h : Spells tail text tokens) :
    Spells tail (word.toList ++ text) (inLine kind word :: tokens) :=
  @Spells.token tail (inLine kind word) text tokens hspelled rfl habuts h

theorem Spells.word {name : String} (hspelled : Spelled kind name.toList)
    (hkind : kind ∈ [Kind.identifier, .keyword, .attribute]) (hends : EndsWord (text ++ tail))
    (h : Spells tail text tokens) :
    Spells tail (name.toList ++ text) (inLine kind name :: tokens) :=
  .cons hspelled (abuts_word hkind hends) h

/-- What ends a word may also be the first token of a text that is spelled out. -/
theorem Spells.endsWord (h : Spells tail text tokens) (htail : EndsWord tail)
    (htokens : ∀ token ∈ tokens.head?, EndsWord token.text.toList) : EndsWord (text ++ tail) := by
  cases h with
  | nil => exact htail
  | blank => exact .of_cons (by decide +kernel)
  | @token token text tokens hspelled _ _ _ =>
    obtain ⟨c, cs, htext, -⟩ := hspelled
    have hends := htokens token rfl
    rw [htext] at hends ⊢
    exact hends

/-- The marks and symbols of types that nothing can be read as more of. -/
def closedSymbols : List (Kind × String) :=
  [(.punctuation, "("), (.punctuation, ")"), (.punctuation, "["), (.punctuation, "]"),
   (.punctuation, "<"), (.punctuation, ">"), (.punctuation, ","), (.punctuation, ":"),
   (.operator, "?"), (.operator, "!"), (.operator, "->"), (.operator, "...")]

theorem spelled_closedSymbol {symbol : String} (h : (kind, symbol) ∈ closedSymbols) :
    Spelled kind symbol.toList := by
  have hall : ∀ entry ∈ closedSymbols, Spelled entry.1 entry.2.toList := by decide +kernel
  exact hall _ h

/-- No word is one of these. -/
theorem Spelled.ne_closedSymbol {word symbol : String} {kind' : Kind}
    (hspelled : Spelled kind' word.toList) (h : (kind, symbol) ∈ closedSymbols)
    (hkind : kind' ≠ kind) : word ≠ symbol := by
  rintro rfl
  exact hkind (hspelled.kind_eq (spelled_closedSymbol h))

theorem Spells.symbol {symbol : String} (hsymbol : (kind, symbol) ∈ closedSymbols)
    (h : Spells tail text tokens) :
    Spells tail (symbol.toList ++ text) (inLine kind symbol :: tokens) := by
  have hall : ∀ entry ∈ closedSymbols, entry.1 ∈ [Kind.punctuation, .operator] ∧
      (entry.2.toList.tail = [] → entry.2.toList.head? ∈ closedMarks.map some) := by decide +kernel
  obtain ⟨hkind, hmark⟩ := hall _ hsymbol
  refine .cons (spelled_closedSymbol hsymbol) (abuts_mark hkind fun c hc ↦ ?_) h
  rw [hc] at hmark
  have hclosed : c ∈ closedMarks := by simpa using hmark rfl
  refine ⟨compoundExtent_closedMark hclosed, ?_⟩
  rintro rfl
  exact absurd hclosed (by decide)

theorem Spells.lastSymbol {symbol : String} (hsymbol : (kind, symbol) ∈ closedSymbols) :
    Spells tail symbol.toList [inLine kind symbol] := by
  have hspells : Spells tail (symbol.toList ++ []) [inLine kind symbol] := .symbol hsymbol .nil
  rwa [List.append_nil] at hspells

theorem Spells.lastWord {name : String} (hspelled : Spelled kind name.toList)
    (hkind : kind ∈ [Kind.identifier, .keyword, .attribute]) (hends : EndsWord tail) :
    Spells tail name.toList [inLine kind name] := by
  have hspells : Spells tail (name.toList ++ []) [inLine kind name] :=
    .word hspelled hkind hends .nil
  rwa [List.append_nil] at hspells

theorem Spelled.ne_dot {name : List Char} (h : Spelled .identifier name) (text : List Char) :
    ∀ d ∈ (name ++ text).head?, d ≠ '.' := by
  obtain ⟨c, cs, rfl, hpiece⟩ := h
  rintro _ ⟨⟩ rfl
  generalize cs.length = n at hpiece
  cases hpiece with
  | token _ htoken =>
    generalize hpiece : Piece.token .identifier = piece at htoken
    cases htoken with
    | name hname => exact absurd hname (by decide +kernel)
    | number => cases hpiece
    | compound => cases hpiece
    | punctuation => cases hpiece
    | operator => cases hpiece

/-- An ellipsis begins with two dots. -/
theorem compoundExtent_dot (hdot : ∀ d ∈ tail.head?, d ≠ '.') : compoundExtent '.' tail = none := by
  rw [Option.eq_none_iff_forall_ne_some]
  intro n hn
  obtain ⟨-, hmem⟩ := compoundExtent_eq_some_iff.mp hn
  rcases tail with _ | ⟨d, tail⟩
  · simp [compounds] at hmem
  · rcases n with _ | n
    · simp [compounds] at hmem
    · simp [compounds, hdot d rfl] at hmem

/-- A dot amid names. -/
theorem Spells.dot (hdot : ∀ d ∈ (text ++ tail).head?, d ≠ '.') (h : Spells tail text tokens) :
    Spells tail (".".toList ++ text) (inLine .punctuation "." :: tokens) := by
  refine .cons (by decide +kernel) (abuts_mark (by decide) fun c hc ↦ ?_) h
  obtain rfl : '.' = c := (List.cons.inj hc).1
  exact ⟨compoundExtent_dot hdot, by decide⟩

/-- An ampersand between blanks. -/
theorem Spells.ampersand (h : Spells tail text tokens) :
    Spells tail ("&".toList ++ ' ' :: text) (inLine .punctuation "&" :: tokens) := by
  refine .cons (by decide +kernel) (abuts_mark (by decide) fun c hc ↦ ?_) (.blank h)
  obtain rfl : '&' = c := (List.cons.inj hc).1
  exact ⟨rfl, by decide⟩

end TestDouble.Token
