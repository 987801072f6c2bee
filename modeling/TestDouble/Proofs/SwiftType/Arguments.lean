import TestDouble.Proofs.SwiftType.Restores
import TestDouble.Proofs.Token.Round

/-!
# Arguments that keep their tokens

The arguments of an attribute and the error type of a function are kept as text, whatever tokens
they are made of. Text joined from arbitrary tokens need not be scanned as the same tokens again,
but names with commas and dots are, and they never close a group.
-/

namespace TestDouble

open Reader Token

/-! ## Closing a group again -/

namespace Bracket

/-- A group without brackets inside ends at its closer. -/
theorem close_append_closer {inner rest : List Token} {closer : Token}
    (hinner : ∀ token ∈ inner, role .round token = .neutral)
    (hcloser : role .round closer = .closes .round) :
    Bracket.round.close (inner ++ closer :: rest) = .closed inner rest := by
  refine UpTo.closeFrom_append ?_ rest
  induction inner with
  | nil => exact .last hcloser
  | cons token inner ih =>
    obtain ⟨htoken, hinner⟩ := List.forall_mem_cons.mp hinner
    exact .neutral htoken (ih hinner)

end Bracket

/-! ## Plain arguments -/

/-- Names, commas, and single dots between names. -/
inductive PlainArguments : List Token → Prop
  | nil : PlainArguments []
  | comma {comma : Token} {rest : List Token} : comma.is "," = true → PlainArguments rest →
      PlainArguments (comma :: rest)
  | name {name : Token} {rest : List Token} : name.kind = .identifier → PlainArguments rest →
      PlainArguments (name :: rest)
  | path {name dot next : Token} {rest : List Token} : name.kind = .identifier → dot.is "." = true →
      next.kind = .identifier → PlainArguments (next :: rest) →
      PlainArguments (name :: dot :: next :: rest)

/-- The token amid a line. -/
def Token.unbroken (token : Token) : Token :=
  inLine token.kind token.text

@[simp] theorem Token.join_map_unbroken (tokens : List Token) :
    Token.join (tokens.map unbroken) = Token.join tokens := by
  rw [Token.join, Token.join, List.map_map]
  rfl

/-- No name is a mark that is spaced in its own way, or a bracket. -/
theorem Token.Spelled.not_mark {name : String} (h : Spelled .identifier name.toList) :
    name ∉ clingsBack ∧ name ∉ clingsForward ∧ name ∉ groupOpeners ∧
      name ∉ Bracket.all.map Bracket.opener ∧ name ∉ Bracket.all.map Bracket.closer := by
  have hnone : ∀ mark ∈ clingsBack ++ clingsForward ++ groupOpeners ++
      Bracket.all.map Bracket.opener ++ Bracket.all.map Bracket.closer,
      ¬ Spelled .identifier mark.toList := by decide +kernel
  have hnot : name ∉ clingsBack ++ clingsForward ++ groupOpeners ++
      Bracket.all.map Bracket.opener ++ Bracket.all.map Bracket.closer := fun hmem ↦ hnone _ hmem h
  simpa only [List.mem_append, not_or, and_assoc] using hnot

theorem Token.Spelled.unbroken_mark {token : Token} {mark : String}
    (hspelled : Spelled token.kind token.text.toList) (h : token.is mark = true)
    (hmark : Spelled .punctuation mark.toList) : token.unbroken = inLine .punctuation mark := by
  have htext := text_eq_of_is h
  rw [htext] at hspelled
  rw [unbroken, htext, hspelled.kind_eq hmark]

theorem Token.Spelled.unbroken_name {token : Token}
    (hspelled : Spelled token.kind token.text.toList) (h : token.kind = .identifier) :
    token.unbroken = inLine .identifier token.text ∧ Spelled .identifier token.text.toList := by
  rw [h] at hspelled
  exact ⟨by rw [unbroken, h], hspelled⟩

theorem Token.Spelled.role_name {name : String} (h : Spelled .identifier name.toList)
    (outermost : Bracket) : Bracket.role outermost (inLine .identifier name) = .neutral := by
  obtain ⟨-, -, -, hopener, hcloser⟩ := h.not_mark
  have hopen : Bracket.ofOpener? name = none := by
    refine List.find?_eq_none.mpr fun bracket hbracket hname ↦ hopener ?_
    rw [← of_decide_eq_true hname]
    exact List.mem_map_of_mem hbracket
  have hclose : Bracket.ofCloser? name = none := by
    refine List.find?_eq_none.mpr fun bracket hbracket hname ↦ hcloser ?_
    rw [← of_decide_eq_true hname]
    exact List.mem_map_of_mem hbracket
  simp [Bracket.role, hopen, hclose]

/-! Names keep their distance, and commas and dots do not. -/

theorem Token.joinAfter_cling {text previous : String} (h : text ∈ clingsBack)
    (rest : List String) :
    joinAfter previous (text :: rest) = text ++ joinAfter text rest := by
  have hspaced : spaced previous text = false := if_pos (.inl h)
  simp [joinAfter, hspaced]

theorem Token.joinAfter_name {name : String} (h : Spelled .identifier name.toList)
    (previous : String) (rest : List String) : joinAfter previous (name :: rest) =
      (if previous ∈ clingsForward then "" else " ") ++ name ++ joinAfter name rest := by
  obtain ⟨hback, -, hopener, -⟩ := h.not_mark
  have hspaced : spaced previous name = !decide (previous ∈ clingsForward) := by
    by_cases hprevious : previous ∈ clingsForward <;> simp [spaced, hback, hopener, hprevious]
  rw [joinAfter, hspaced]
  by_cases hprevious : previous ∈ clingsForward <;> simp [hprevious]

theorem Token.Spells.spacedName {name previous : String} {rest : List String} {tail : List Char}
    {tokens : List Token} (hname : Spelled .identifier name.toList)
    (hends : EndsWord ((joinAfter name rest).toList ++ tail))
    (h : Spells tail (joinAfter name rest).toList tokens) :
    Spells tail (joinAfter previous (name :: rest)).toList (inLine .identifier name :: tokens) := by
  have hword := Spells.word hname (by decide) hends h
  rw [joinAfter_name hname, String.toList_append, String.toList_append, List.append_assoc]
  by_cases hprevious : previous ∈ clingsForward
  · rw [if_pos hprevious]
    exact hword
  · rw [if_neg hprevious]
    exact .blank hword

namespace PlainArguments

variable {tokens : List Token}

theorem eq_name_or_mark (h : PlainArguments tokens) :
    ∀ token ∈ tokens, token.kind = .identifier ∨ token.is "," = true ∨ token.is "." = true := by
  induction h with
  | nil => simp
  | comma hcomma _ ih => exact List.forall_mem_cons.mpr ⟨.inr (.inl hcomma), ih⟩
  | name hname _ ih => exact List.forall_mem_cons.mpr ⟨.inl hname, ih⟩
  | path hname hdot _ _ ih =>
    exact List.forall_mem_cons.mpr ⟨.inl hname, List.forall_mem_cons.mpr ⟨.inr (.inr hdot), ih⟩⟩

section Spelled

variable (hspelled : ∀ token ∈ tokens, Spelled token.kind token.text.toList)
include hspelled

theorem role_eq_neutral (h : PlainArguments tokens) :
    ∀ token ∈ tokens.map unbroken, Bracket.role .round token = .neutral := by
  refine List.forall_mem_map.mpr fun token htoken ↦ ?_
  have hspelled := hspelled token htoken
  rcases h.eq_name_or_mark token htoken with hname | hcomma | hdot
  · obtain ⟨heq, hname⟩ := hspelled.unbroken_name hname
    rw [heq, hname.role_name]
  · rw [hspelled.unbroken_mark hcomma (by decide +kernel)]
    rfl
  · rw [hspelled.unbroken_mark hdot (by decide +kernel)]
    rfl

theorem not_parenthesis (h : PlainArguments tokens) :
    ∀ token ∈ tokens, token.text ≠ "(" ∧ token.text ≠ ")" := by
  intro token htoken
  rcases h.eq_name_or_mark token htoken with hname | hcomma | hdot
  · obtain ⟨-, hname⟩ := (hspelled token htoken).unbroken_name hname
    obtain ⟨-, -, -, hopener, hcloser⟩ := hname.not_mark
    constructor <;> intro heq <;> rw [heq] at hopener hcloser
    · exact hopener (by decide)
    · exact hcloser (by decide)
  · rw [text_eq_of_is hcomma]
    decide
  · rw [text_eq_of_is hdot]
    decide

theorem endsWord (h : PlainArguments tokens) {previous : String}
    (hprevious : previous ∉ clingsForward) {tail : List Char} (htail : EndsWord tail) :
    EndsWord ((joinAfter previous (tokens.map (·.text))).toList ++ tail) := by
  have hname {name : Token} {rest : List String} (hspelled : Spelled name.kind name.text.toList)
      (hname : name.kind = .identifier) :
      EndsWord ((joinAfter previous (name.text :: rest)).toList ++ tail) := by
    obtain ⟨-, hname⟩ := hspelled.unbroken_name hname
    rw [joinAfter_name hname, if_neg hprevious, String.toList_append, String.toList_append]
    exact .of_cons (by decide +kernel)
  cases h with
  | nil => exact htail
  | comma hcomma _ =>
    rw [List.map_cons, text_eq_of_is hcomma, joinAfter_cling (by decide), String.toList_append]
    exact .of_cons (by decide +kernel)
  | name hkind _ => exact hname (hspelled _ List.mem_cons_self) hkind
  | path hkind _ _ _ => exact hname (hspelled _ List.mem_cons_self) hkind

theorem spells (h : PlainArguments tokens) (previous : String) {tail : List Char}
    (htail : EndsWord tail) :
    Spells tail (joinAfter previous (tokens.map (·.text))).toList (tokens.map unbroken) := by
  induction h generalizing previous with
  | nil => exact .nil
  | @comma comma rest hcomma hrest ih =>
    obtain ⟨hfirst, hspelled⟩ := List.forall_mem_cons.mp hspelled
    rw [List.map_cons, List.map_cons, text_eq_of_is hcomma, joinAfter_cling (by decide),
      String.toList_append, hfirst.unbroken_mark hcomma (by decide +kernel)]
    exact .symbol (by decide) (ih hspelled ",")
  | @name name rest hname hrest ih =>
    obtain ⟨hfirst, hspelled⟩ := List.forall_mem_cons.mp hspelled
    obtain ⟨heq, hname⟩ := hfirst.unbroken_name hname
    have hends := hrest.endsWord hspelled hname.not_mark.2.1 htail
    rw [List.map_cons, List.map_cons, heq]
    exact .spacedName hname hends (ih hspelled name.text)
  | @path name dot next rest hname hdot hnext hrest ih =>
    obtain ⟨hfirst, hspelled⟩ := List.forall_mem_cons.mp hspelled
    obtain ⟨hsecond, hspelled⟩ := List.forall_mem_cons.mp hspelled
    obtain ⟨heq, hname⟩ := hfirst.unbroken_name hname
    obtain ⟨-, hnext⟩ := (hspelled next List.mem_cons_self).unbroken_name hnext
    -- The dot stands between two names, so neither side of it has a blank.
    have hrest := ih hspelled "."
    have hback : Spells tail (joinAfter name.text ((dot :: next :: rest).map (·.text))).toList
        ((dot :: next :: rest).map unbroken) := by
      rw [List.map_cons, List.map_cons (f := unbroken), text_eq_of_is hdot,
        joinAfter_cling (by decide), String.toList_append,
        hsecond.unbroken_mark hdot (by decide +kernel)]
      refine .dot ?_ hrest
      rw [List.map_cons, joinAfter_name hnext, if_pos (by decide), String.empty_append,
        String.toList_append, List.append_assoc]
      exact hnext.ne_dot _
    rw [List.map_cons, List.map_cons (f := unbroken), heq]
    refine .spacedName hname ?_ hback
    rw [List.map_cons, text_eq_of_is hdot, joinAfter_cling (by decide), String.toList_append]
    exact .of_cons (by decide +kernel)

end Spelled

end PlainArguments

/-! ## Arguments in parentheses -/

theorem Token.joinAfter_opener {opener : String} (h : opener ∈ clingsForward)
    (texts : List String) : joinAfter opener texts = joinTexts texts := by
  cases texts with
  | nil => rfl
  | cons text texts =>
    have hspaced : spaced opener text = false := if_pos (.inr h)
    simp [joinAfter, joinTexts, hspaced]

namespace SwiftType

/-- What follows attributes that take arguments, and effects. -/
theorem exists_of_reads_adjoinedGroup {bracket : Bracket} {scope : Scope}
    {tokens rest : List Token} {text : String}
    (h : Reads (adjoinedGroup bracket) scope tokens text rest) :
    (adjoins bracket.opener tokens = false ∧ text = "" ∧ tokens = rest) ∨
      ∃ opener inner closer, tokens = opener :: inner ++ closer :: rest ∧
        opener.is bracket.opener = true ∧ opener.freshLine = false ∧
        bracket.close (inner ++ [closer]) = .closed inner [] ∧
        text = bracket.opener ++ Token.join inner ++ bracket.closer := by
  rcases reads_adjoinedGroup_iff.mp h with ⟨hadjoins, inner, hclose, rfl⟩ | ⟨hadjoins, rfl, rfl⟩
  · rcases tokens with _ | ⟨opener, tokens⟩
    · cases hadjoins
    have hopener : opener.is bracket.opener = true ∧ opener.freshLine = false := by
      simpa [adjoins] using hadjoins
    obtain ⟨closer, rfl, hagain⟩ := Bracket.exists_closer_of_closeFrom hclose
    exact .inr ⟨opener, inner, closer, rfl, hopener.1, hopener.2, hagain [], rfl⟩
  · exact .inl ⟨hadjoins, rfl, rfl⟩

/-- The tokens of arguments that can be read again. -/
inductive Arguments : String → List Token → Prop
  | none : Arguments "" []
  | group {inner : List Token} : (∀ token ∈ inner, Spelled token.kind token.text.toList) →
      PlainArguments inner → Arguments ("(" ++ Token.join inner ++ ")")
        (inLine .punctuation "(" :: (inner.map unbroken ++ [inLine .punctuation ")"]))

namespace Arguments

variable {text : String} {tokens : List Token}

theorem restores (h : Arguments text tokens) :
    Restores (fun _ ↦ adjoinedGroup .round) (Avoids ["("]) text text tokens where
  spells tail htail := by
    cases h with
    | none => exact .nil
    | group hspelled hplain =>
      have hends : EndsWord (")".toList ++ tail) := .of_cons (by decide +kernel)
      have hopener : (Kind.punctuation, "(") ∈ closedSymbols := by decide
      have hcloser : Spells tail ")".toList [inLine .punctuation ")"] := .lastSymbol (by decide)
      have hinner := hplain.spells hspelled "(" hends
      rw [joinAfter_opener (by decide)] at hinner
      rw [String.toList_append, String.toList_append, List.append_assoc]
      exact .symbol hopener (hinner.append hcloser)
  reads depth hdepth scope after hafter := by
    cases h with
    | none =>
      have hadjoins : adjoins "(" after = false := hafter.adjoins_eq_false (by decide)
      exact reads_adjoinedGroup_iff.mpr (.inr ⟨hadjoins, rfl, rfl⟩)
    | @group inner hspelled hplain =>
      refine reads_adjoinedGroup_iff.mpr (.inl ⟨rfl, inner.map unbroken, ?_, ?_⟩)
      · rw [List.cons_append, List.tail_cons, List.append_assoc]
        exact Bracket.close_append_closer (hplain.role_eq_neutral hspelled) rfl
      · rw [join_map_unbroken]
        rfl

theorem head_endsWord (h : Arguments text tokens) :
    ∀ token ∈ tokens.head?, EndsWord token.text.toList := by
  cases h with
  | none => rintro _ ⟨⟩
  | group =>
    rintro _ ⟨⟩
    exact .of_cons (by decide +kernel)

end Arguments

/-! ## Tokens whose text says what they are -/

/-- The attributes that take arguments in front of a type. -/
def attributesWithArguments : List String :=
  ["@convention", "@differentiable"]

/-- What has to hold of the tokens of a type, so that its text restores it. -/
structure Tame (tokens : List Token) : Prop where
  /-- No ownership specifier comes after `inout` in front of a type. -/
  ordered : ∀ ⦃front next scope specifiers⦄, front ++ [next] <:+: tokens →
    Reads (repeated specifier) scope (front ++ [next]) specifiers [next] →
    ∀ word ∈ ownershipSpecifiers, ¬ [Specifier.inoutWord, .written word].Sublist specifiers
  /-- A parenthesis behind an attribute that takes arguments opens these. -/
  adjoined : ∀ ⦃owner opener⦄, [owner, opener] <:+: tokens →
    owner.text ∈ attributesWithArguments → opener.is "(" = true → opener.freshLine = false
  /-- Arguments of an attribute, and the error type of a function, are plain. -/
  plain : ∀ ⦃owner opener inner closer⦄, owner :: opener :: inner ++ [closer] <:+: tokens →
    owner.text ∈ "throws" :: attributesWithArguments → opener.is "(" = true →
    Bracket.round.close (inner ++ [closer]) = .closed inner [] → PlainArguments inner

theorem Tame.exists_arguments {whole : List Token} (htame : Tame whole)
    (hspelled : ∀ token ∈ whole, Spelled token.kind token.text.toList) {owner : Token}
    (howner : owner.text ∈ "throws" :: attributesWithArguments) {scope : Scope}
    {tokens rest : List Token} {text : String}
    (h : Reads (adjoinedGroup .round) scope tokens text rest) :
    ∃ consumed, tokens = consumed ++ rest ∧
      (owner :: consumed <:+: whole → ∃ item, Arguments text item) := by
  rcases exists_of_reads_adjoinedGroup h with
    ⟨-, rfl, rfl⟩ | ⟨opener, inner, closer, rfl, hopener, -, hclose, rfl⟩
  · exact ⟨[], rfl, fun _ ↦ ⟨[], .none⟩⟩
  · refine ⟨opener :: inner ++ [closer], by simp, fun hpart ↦ ?_⟩
    have hinner : ∀ token ∈ inner, Spelled token.kind token.text.toList := fun token htoken ↦
      hspelled token (hpart.subset (by simp [htoken]))
    exact ⟨_, .group hinner (htame.plain hpart howner hopener hclose)⟩

end SwiftType

end TestDouble
