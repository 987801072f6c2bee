import TestDouble.Proofs.Token.Spells

/-!
# Identifiers

A text is an identifier if scanning it gives one token, which is an identifier and the whole of it.
Either it is a word that is not reserved, or it stands in backticks. So a text made of a word and
more characters behind it is one exactly if all of these are characters of names, unless that spells
a reserved word.
-/

namespace TestDouble

open Text

/-- The text is one token, and that token is an identifier. -/
def ScansAsIdentifier (text : String) : Prop :=
  ∃ token finish, Tokens.scan text = .ok ⟨[token], finish⟩ ∧ token.kind = .identifier

/-- The text is one identifier from its first character to its last. Without the last condition
there could be blanks and comments around the identifier. -/
def Identifies (text : String) : Prop :=
  ∃ token finish, Tokens.scan text = .ok ⟨[token], finish⟩ ∧ token.kind = .identifier ∧
    token.text = text

/-- The text is a token that may stand for a name. -/
def Nameable (text : String) : Prop :=
  Token.Spelled .identifier text.toList ∨ Token.Spelled .keyword text.toList

theorem scansAsIdentifier_iff {text : String} : ScansAsIdentifier text ↔
    (Tokens.scan text).toOption.any (·.items.map (·.kind) = [.identifier]) = true := by
  rw [Option.any_eq_true]
  constructor
  · rintro ⟨token, finish, hscan, hkind⟩
    exact ⟨_, Except.toOption_eq_some_iff.mpr hscan, by simp [hkind]⟩
  · rintro ⟨⟨items, finish⟩, hscan, hkinds⟩
    obtain ⟨token, rfl, hkind⟩ := List.map_eq_singleton_iff.mp (of_decide_eq_true hkinds)
    exact ⟨token, finish, Except.toOption_eq_some_iff.mp hscan, hkind⟩

instance (text : String) : Decidable (ScansAsIdentifier text) :=
  decidable_of_iff _ scansAsIdentifier_iff.symm

namespace Token

variable {kind : Kind} {c : Char} {cs front back text : List Char}

/-! ## Words -/

theorem isNameRest_of_isNameStart (h : isNameStart c = true ∨ c = '$') : isNameRest c = true := by
  rcases h with hstart | rfl
  · rw [isNameStart, Bool.and_eq_true] at hstart
    simp [isNameRest, hstart.1]
  · rfl

theorem covers_cons {ranges : Ranges} {first last n : Nat} (hfirst : first ≤ n) (hlast : n ≤ last) :
    Ranges.covers ((first, last) :: ranges) n = true := by
  rw [Ranges.covers, if_neg (by omega), decide_eq_true hlast, Bool.true_or]

/-- The digits of numerals are characters of names. -/
theorem isNameRest_of_mem_toString {n : Nat} (h : c ∈ (toString n).toList) :
    isNameRest c = true := by
  rw [Nat.toString_eq_repr, Nat.toList_repr] at h
  have hdigit := Nat.isDigit_of_mem_toDigits (by decide) (by decide) h
  have hbounds : 0x30 ≤ c.toNat ∧ c.toNat ≤ 0x39 := by
    simpa [Char.isDigit, UInt32.le_iff_toNat_le] using hdigit
  have hcovers : alphanumericRanges.covers c.toNat = true := covers_cons hbounds.1 hbounds.2
  simp [isNameRest, isWord, hcovers]

private theorem plain_of_isNameStart (h : isNameStart c = true ∨ c = '$') : Plain c cs := by
  have hrest := isNameRest_of_isNameStart h
  refine ⟨?_, ?_, ?_⟩
  · by_contra hblank
    rw [isNameRest_eq_false (endsWord_of_isBlank (by simpa using hblank))] at hrest
    cases hrest
  · rintro rfl
    exact absurd hrest (by decide +kernel)
  · rintro rfl
    exact absurd hrest (by decide +kernel)

theorem countWhile_eq_length_iff {p : Char → Bool} :
    countWhile p cs = cs.length ↔ ∀ d ∈ cs, p d = true := by
  rw [countWhile, ← List.takeWhile_eq_self_iff]
  exact ⟨fun h ↦ (List.takeWhile_prefix p).eq_of_length h, fun h ↦ by rw [h]⟩

/-- What begins like a name is a token if it goes on like one. -/
theorem spelled_cons_iff (h : isNameStart c = true ∨ c = '$') :
    Spelled kind (c :: cs) ↔ (∀ d ∈ cs, isNameRest d = true) ∧
      kind = if String.ofList (c :: cs) ∈ keywords then .keyword else .identifier := by
  have hpiece : FirstPiece c cs _ _ := .token (plain_of_isNameStart h) (.name h)
  rw [spelled_iff, ← countWhile_eq_length_iff]
  simp only [List.head?_cons, Option.mem_some_iff, exists_eq_left', List.tail_cons, hpiece.eq_ok,
    Except.ok.injEq, Prod.mk.injEq]
  rw [and_comm, and_congr_right_iff]
  intro hlength
  rw [hlength, List.take_length, namePiece, Piece.token.injEq, eq_comm]

/-- A name begins with a character for that, or it is an identifier in backticks. -/
theorem Spelled.starts (h : Spelled kind (c :: cs)) (hkind : kind ∈ [Kind.identifier, .keyword]) :
    (isNameStart c = true ∨ c = '$') ∨ kind = .identifier ∧ c = '\x60' ∧ ClosesName cs := by
  obtain ⟨_, _, heq, hpiece⟩ := h
  obtain ⟨rfl, rfl⟩ := List.cons.inj heq
  generalize hn : cs.length = n at hpiece
  cases hpiece with
  | multiline | string => exact absurd hkind (by decide)
  | token _ htoken =>
    generalize hpiece : Piece.token kind = piece at htoken
    cases htoken with
    | name hname => exact .inl hname
    | escapedName hextent =>
      have hcloses := (closesName_of_extent hextent).2
      rw [← hn, List.take_length] at hcloses
      exact .inr ⟨Piece.token.inj hpiece, rfl, hcloses⟩
    | number | compound | punctuation | operator | attributeName =>
      obtain rfl := Piece.token.inj hpiece
      exact absurd hkind (by decide)

theorem Spelled.mem_keywords (h : Spelled .keyword text) : String.ofList text ∈ keywords := by
  obtain ⟨c, cs, rfl, -⟩ := id h
  have hstart := (h.starts (by decide)).resolve_right fun hescaped ↦ nomatch hescaped.1
  by_contra hnot
  have hkind := ((spelled_cons_iff hstart).mp h).2
  rw [if_neg hnot] at hkind
  cases hkind

theorem Spelled.starts_of_plain (h : Spelled .identifier (c :: cs)) (hplain : '\x60' ∉ c :: cs) :
    isNameStart c = true ∨ c = '$' :=
  (h.starts (by decide)).resolve_right fun hescaped ↦ hplain (hescaped.2.1 ▸ List.mem_cons_self)

/-- An identifier without backticks is a word. -/
theorem Spelled.forall_isNameRest_iff (h : Spelled .identifier text) :
    (∀ d ∈ text, isNameRest d = true) ↔ '\x60' ∉ text := by
  constructor
  · intro hall hmem
    exact absurd (hall _ hmem) (by decide +kernel)
  · intro hplain
    obtain ⟨c, cs, rfl, -⟩ := id h
    have hstart := h.starts_of_plain hplain
    exact List.forall_mem_cons.mpr
      ⟨isNameRest_of_isNameStart hstart, ((spelled_cons_iff hstart).mp h).1⟩

/-- Whether more characters behind a word make one identifier of it is up to these characters. -/
theorem spelled_append_iff (hfront : Spelled .identifier front) (hplain : '\x60' ∉ front)
    (hkeywords : ∀ keyword ∈ keywords, ¬ front <+: keyword.toList) :
    Spelled .identifier (front ++ back) ↔ ∀ d ∈ back, isNameRest d = true := by
  have hword := hfront.forall_isNameRest_iff.mpr hplain
  obtain ⟨c, cs, rfl, -⟩ := id hfront
  have hstart := hfront.starts_of_plain hplain
  -- A reserved word that these characters spell would begin with the word in front.
  have hnot : String.ofList (c :: (cs ++ back)) ∉ keywords := by
    intro hmem
    refine hkeywords _ hmem ?_
    rw [String.toList_ofList]
    exact List.prefix_append (c :: cs) back
  rw [List.cons_append, spelled_cons_iff hstart, if_neg hnot, List.forall_mem_append]
  exact ⟨fun h ↦ h.1.2, fun h ↦ ⟨⟨(List.forall_mem_cons.mp hword).2, h⟩, rfl⟩⟩

end Token

theorem identifies_iff_spelled {text : String} :
    Identifies text ↔ Token.Spelled .identifier text.toList := by
  constructor
  · rintro ⟨token, finish, hscan, hkind, rfl⟩
    rw [← hkind]
    exact Token.spelled_of_mem hscan token List.mem_cons_self
  · rintro ⟨c, cs, htext, hpiece⟩
    have hfirst : Token.FirstPiece c (cs ++ []) (.token .identifier) cs.length := by
      rwa [List.append_nil]
    have hscan := Token.scanFrom_token hfirst 1 false
    rw [List.append_nil, ← htext, String.ofList_toList, Token.scanFrom] at hscan
    exact ⟨_, _, hscan, rfl, rfl⟩

theorem Nameable.of_isName {token : Token} (h : Token.Spelled token.kind token.text.toList)
    (hname : token.isName = true) : Nameable token.text := by
  rw [Token.isName, Bool.or_eq_true, decide_eq_true_eq, decide_eq_true_eq] at hname
  rcases hname with hkind | hkind
  · exact .inl (hkind ▸ h)
  · exact .inr (hkind ▸ h)

/-- A name is more than backticks. -/
theorem Nameable.exists_ne_backtick {text : String} (h : Nameable text) :
    ∃ d ∈ text.toList, d ≠ '\x60' := by
  have hstarts {kind : Token.Kind} (h : Token.Spelled kind text.toList)
      (hkind : kind ∈ [Token.Kind.identifier, .keyword]) : ∃ d ∈ text.toList, d ≠ '\x60' := by
    obtain ⟨c, cs, htext, -⟩ := id h
    rw [htext] at h ⊢
    rcases h.starts hkind with hstart | ⟨-, -, name, hne, hname, rfl⟩
    · refine ⟨c, List.mem_cons_self, ?_⟩
      rintro rfl
      exact absurd (Token.isNameRest_of_isNameStart hstart) (by decide +kernel)
    · obtain ⟨d, hd⟩ := List.exists_mem_of_ne_nil name hne
      exact ⟨d, by simp [hd], (hname d hd).1⟩
  exact h.elim (hstarts · (by decide)) (hstarts · (by decide))

/-- The names that are made up for parameters are identifiers. -/
theorem nameable_positional (n : Nat) : Nameable s!"param{n}" := by
  left
  have happend : s!"param{n}".toList = "param".toList ++ (toString n).toList := by
    simp only [String.toList_append]
    rfl
  rw [happend]
  exact (Token.spelled_append_iff (by decide +kernel) (by decide) (by decide)).mpr
    fun d hd ↦ Token.isNameRest_of_mem_toString hd

/-- Of the texts that may stand for a name, the reserved words are no identifiers. -/
theorem Nameable.identifies_iff {text : String} (h : Nameable text) :
    Identifies text ↔ text ∉ Token.keywords := by
  have hkeywords : ∀ keyword ∈ Token.keywords, ¬ Token.Spelled .identifier keyword.toList := by
    decide +kernel
  rw [identifies_iff_spelled]
  refine ⟨fun hspelled hmem ↦ hkeywords text hmem hspelled, fun hnot ↦ ?_⟩
  refine h.resolve_right fun hword ↦ ?_
  have hmem := hword.mem_keywords
  rw [String.ofList_toList] at hmem
  exact hnot hmem

end TestDouble
