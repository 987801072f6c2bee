import TestDouble.Proofs.SwiftType.Arguments
import TestDouble.Proofs.SwiftType.Component

/-!
# Types without what stands in front of them

A type with its suffixes may be a type of its own, the parameters of a function type or a part of a
composition. Which of these it is is decided by what follows it, and by the word in front.
-/

namespace TestDouble

open Reader Token

namespace SwiftType

/-! ## Effects -/

/-- An effect of a function is restored by its text. -/
structure RestoresEffect (effect : String) (tokens : List Token) : Prop extends
    Restores (fun _ ↦ functionEffect) (Avoids ["("]) effect (Turn.more effect) tokens where
  ne_nil : tokens ≠ []
  avoids : ∀ after, Avoids ("(" :: suffixBeginnings) (tokens ++ after)
  /-- The arrow may stand behind the effect. -/
  arrowAhead_append : ∀ after, Avoids ["("] after →
    arrowAhead (tokens ++ after) = arrowAhead after

private theorem arrowFrom_afterEffect {after : List Token} (h : Avoids ["("] after) :
    arrowFrom true 0 after = arrowAhead after := by
  rcases after with _ | ⟨token, after⟩
  · rfl
  · have hopener : token.is "(" = false := by
      have hstands := h.stands_eq_false List.mem_cons_self
      simpa using hstands
    simp [arrowAhead, arrowFrom, hopener]

private theorem restoresEffect_async : RestoresEffect "async" [inLine .identifier "async"] where
  spells tail htail := .lastWord (by decide +kernel) (by decide) htail
  reads _ _ _ _ _ := (reads_accept_bind_iff_of_is rfl).mpr .pure
  ne_nil := List.cons_ne_nil _ _
  avoids _ := .of_cons (by decide)
  arrowAhead_append after hafter := arrowFrom_afterEffect hafter

private theorem arrowFrom_arguments {text : String} {tokens after : List Token}
    (h : Arguments text tokens)
    (hafter : Avoids ["("] after) : arrowFrom true 0 (tokens ++ after) = arrowAhead after := by
  cases h with
  | none => exact arrowFrom_afterEffect hafter
  | @group inner hspelled hplain =>
    have hinner : ∀ token ∈ inner.map unbroken, token.text ≠ "(" ∧ token.text ≠ ")" :=
      List.forall_mem_map.mpr (hplain.not_parenthesis hspelled)
    have hskip (tokens : List Token) (h : ∀ token ∈ tokens, token.text ≠ "(" ∧ token.text ≠ ")") :
        arrowFrom false 1 (tokens ++ inLine .punctuation ")" :: after) = arrowAhead after := by
      induction tokens with
      | nil => rfl
      | cons token tokens ih =>
        obtain ⟨⟨hopener, hcloser⟩, h⟩ := List.forall_mem_cons.mp h
        rw [List.cons_append, arrowFrom, if_neg hopener, if_neg hcloser, ih h]
    have hall := hskip _ hinner
    rw [List.cons_append, List.append_assoc]
    exact hall

private theorem restoresEffect_throws {arguments : String} {item : List Token}
    (h : Arguments arguments item) :
    RestoresEffect ("throws" ++ arguments) (inLine .keyword "throws" :: item) where
  spells tail htail := by
    have hspells := h.restores.spells tail htail
    rw [String.toList_append]
    exact .word (by decide +kernel) (by decide) (hspells.endsWord htail h.head_endsWord) hspells
  reads depth hdepth scope after hafter := by
    have hgroup := h.restores.reads depth (by simp at hdepth; omega) scope after hafter
    refine (reads_accept_bind_iff_of_not_stands rfl).mpr ((reads_accept_bind_iff_of_is rfl).mpr ?_)
    exact hgroup.bind_iff.mpr .pure
  ne_nil := List.cons_ne_nil _ _
  avoids _ := .of_cons (by decide)
  arrowAhead_append after hafter := arrowFrom_arguments h hafter

theorem keeps_functionEffect {whole : List Token} (htame : Tame whole)
    (hspelled : ∀ token ∈ whole, Spelled token.kind token.text.toList) (scope : Scope)
    (tokens : List Token) : Keeps whole (Turn.All fun effect ↦ ∃ item, RestoresEffect effect item)
      functionEffect scope tokens := by
  refine .bind .accept fun seen mid ↦
    .ite (fun _ ↦ .pure fun _ ↦ ⟨_, restoresEffect_async⟩) fun _ ↦ ?_
  intro turn rest hread
  obtain ⟨seen, mid', haccept, hnext⟩ := reads_bind_iff.mp hread
  rcases reads_accept_iff.mp haccept with ⟨rfl, token, rfl, htoken⟩ | ⟨rfl, -, rfl⟩
  · rw [if_pos rfl] at hnext
    obtain ⟨text, rest', hgroup, hpure⟩ := reads_bind_iff.mp hnext
    obtain ⟨rfl, rfl⟩ := reads_pure_iff.mp hpure
    have howner : token.text ∈ "throws" :: attributesWithArguments := by
      rw [text_eq_of_is htoken]
      exact List.mem_cons_self
    obtain ⟨consumed, rfl, hgood⟩ := htame.exists_arguments hspelled howner hgroup
    refine ⟨token :: consumed, rfl, fun hpart _ ↦ ?_⟩
    obtain ⟨item, hitem⟩ := hgood hpart
    exact ⟨_, restoresEffect_throws hitem⟩
  · obtain ⟨rfl, rfl⟩ := reads_pure_iff.mp hnext
    exact ⟨[], rfl, fun _ _ ↦ trivial⟩

/-- Several effects before an arrow. -/
theorem arrowAhead_effects {effects : List String} {items : List (List Token)}
    (h : List.Forall₂ RestoresEffect effects items) (after : List Token) :
    Avoids ("(" :: suffixBeginnings) (items.flatten ++ inLine .operator "->" :: after) ∧
      arrowAhead (items.flatten ++ inLine .operator "->" :: after) = true := by
  induction h with
  | nil => exact ⟨.of_cons (by decide), rfl⟩
  | cons heffect _ ih =>
    rw [List.flatten_cons, List.append_assoc]
    refine ⟨heffect.avoids _, ?_⟩
    rw [heffect.arrowAhead_append _ (ih.1.mono (by decide))]
    exact ih.2

private theorem reads_effects {effects : List String} {items : List (List Token)}
    (h : List.Forall₂ RestoresEffect effects items) (depth : Nat)
    (hdepth : items.flatten.length ≤ depth + 1) (scope : Scope) (after : List Token) :
    Reads (repeated functionEffect) scope (items.flatten ++ inLine .operator "->" :: after) effects
      (inLine .operator "->" :: after) := by
  have hlengths : ∀ item ∈ items, item.length ≤ depth + 1 := fun item hitem ↦
    (List.sublist_flatten_of_mem hitem).length_le.trans hdepth
  have hparts := forall₂_and_of_forall_mem h hlengths
  have havoids : Avoids ["("] (inLine .operator "->" :: after) := .of_cons (by decide)
  refine .repeated_flatten (hparts.imp ?_) havoids ?_
  · rintro effect item ⟨heffect, hlength⟩
    exact ⟨heffect.ne_nil, fun back ↦ (heffect.avoids back).mono (by decide),
      heffect.reads depth hlength scope⟩
  · exact (reads_accept_bind_iff_of_not_stands rfl).mpr
      ((reads_accept_bind_iff_of_not_stands rfl).mpr .pure)

/-! ## Opaque and boxed types -/

/-- The tokens of the word in front of a type. -/
inductive Leads : String → List Token → Prop
  | none : Leads "" []
  | word {word : String} : word ∈ ["some", "any"] → Leads (word ++ " ") [inLine .identifier word]

/-- The tokens are a type in front of which no specifiers stand. -/
inductive BeginsType : List Token → Prop
  | plain {tokens : List Token} : Begins tokens → BeginsType tokens
  | led {word : String} {rest : List Token} : word ∈ ["some", "any"] → Begins rest →
      BeginsType (inLine .identifier word :: rest)

theorem Begins.exists_startsType {tokens : List Token} (h : Begins tokens) :
    ∃ first rest, tokens = first :: rest ∧ startsType first = true := by
  cases h with
  | bracket htext =>
    have hall : ∀ text ∈ ["(", "["], startsType (inLine .punctuation text) = true := by decide
    exact ⟨_, _, rfl, hall _ htext⟩
  | name => exact ⟨_, _, rfl, rfl⟩

/-- A word that is a type modifies none. -/
theorem Begins.modifies_eq_false {tokens : List Token} (h : Begins tokens) {after : List Token}
    (hafter : EndsType after) {words : List String} (hwords : "(" ∉ words ∧ "[" ∉ words) :
    modifies words (tokens ++ after) = false := by
  cases h with
  | @bracket text rest htext =>
    have hword : text ∉ words := by
      simp only [List.mem_cons, List.not_mem_nil, or_false] at htext
      rcases htext with rfl | rfl
      · exact hwords.1
      · exact hwords.2
    rw [List.cons_append]
    rcases rest ++ after with _ | ⟨next, back⟩
    · rfl
    · simp [modifies, hword]
  | @name name rest hname hrest =>
    rcases rest with _ | ⟨next, rest⟩
    · rcases after with _ | ⟨next, after⟩
      · rfl
      · simp [modifies, hafter.not_startsType next rfl]
    · simp [modifies, (hrest.not_startsType next rfl).1]

namespace Leads

variable {read : String} {tokens : List Token}

theorem spells (h : Leads read tokens) (tail : List Char) : Spells tail read.toList tokens := by
  cases h with
  | none => exact .nil
  | @word word hword =>
    have hall : ∀ word ∈ ["some", "any"], Spelled .identifier word.toList := by decide +kernel
    have hends : EndsWord (" ".toList ++ tail) := .of_cons (by decide +kernel)
    rw [String.toList_append]
    exact .word (hall word hword) (by decide) hends (.blank .nil)

theorem eq_nil (h : Leads "" tokens) : tokens = [] := by
  generalize hread : "" = read at h
  cases h with
  | none => rfl
  | @word word _ =>
    have hlength := congrArg String.length hread
    rw [String.length_append] at hlength
    have hblank : " ".length = 1 := rfl
    have hempty : "".length = 0 := rfl
    omega

theorem beginsType (h : Leads read tokens) {item : List Token} (hitem : Begins item) :
    BeginsType (tokens ++ item) := by
  cases h with
  | none => exact .plain hitem
  | word hword => exact .led hword hitem

theorem reads (h : Leads read tokens) {item : List Token} (hitem : Begins item) (scope : Scope)
    {after : List Token} (hafter : EndsType after) :
    Reads lead scope (tokens ++ (item ++ after)) read (item ++ after) := by
  refine reads_ahead_bind_iff.mpr ?_
  cases h with
  | none =>
    refine reads_ite_iff.mpr (.inr ⟨?_, .pure⟩)
    rw [List.nil_append, hitem.modifies_eq_false hafter (by decide)]
    exact Bool.false_ne_true
  | @word word hword =>
    obtain ⟨first, rest, rfl, hfirst⟩ := hitem.exists_startsType
    have hmodifies : modifies ["some", "any"]
        (inLine .identifier word :: (first :: rest ++ after)) = true := by
      rw [List.cons_append, modifies, hfirst, Bool.and_true]
      exact decide_eq_true hword
    exact reads_ite_iff.mpr (.inl ⟨hmodifies,
      reads_next?_bind_iff.mpr .pure⟩)

end Leads

/-! ## Types without specifiers -/

/-- The text of a type without specifiers. -/
def Bare.text (read : Bare) : String :=
  SwiftType.text
    { base := read.base, optionality := read.optionality, needsParens := read.needsParens }

/-- A type without specifiers is restored by its text. -/
structure Bare.Restored (read : Bare) (tokens : List Token) : Prop extends
    Restores bare EndsType read.text read tokens where
  beginsType : BeginsType tokens

/-- What is read after the word in front. -/
def bareAfter (type : Reader SwiftType) (lead : String) : Reader Bare := do
  let startsRound ← sees "("
  let first ← component type
  if startsRound && first.suffixes.isEmpty && arrowAhead (← ahead) then function type lead first
  else if ← sees "&" then
    let others ← repeated (partTurn type)
    let parts := (first :: others).map (·.fullText)
    return { base := lead ++ String.intercalate " & " parts, needsParens := true }
  else if lead ≠ "" then return { base := lead ++ first.fullText, needsParens := true }
  else return first.bare

theorem bare_eq (type : Reader SwiftType) : bare type = lead >>= bareAfter type :=
  rfl

/-- Tokens that begin with a parenthesis begin a type, whatever follows. -/
theorem Begins.append_of_round {tokens : List Token} (h : Begins tokens)
    (hround : stands ["("] tokens = true) (back : List Token) : Begins (tokens ++ back) := by
  cases h with
  | bracket htext => exact .bracket htext
  | @name name rest hname _ =>
    have hopener : (Kind.punctuation, "(") ∈ closedSymbols := by decide
    have hne := hname.ne_closedSymbol hopener (by decide)
    simp [hne] at hround

theorem stands_append {text : String} {front : List Token} (hne : front ≠ []) (back : List Token) :
    stands [text] (front ++ back) = stands [text] front := by
  obtain ⟨first, rest, rfl⟩ := List.exists_cons_of_ne_nil hne
  rfl

theorem Avoids.arrowAhead_eq_false {after : List Token} (h : Avoids typeBeginnings after) :
    arrowAhead after = false := by
  rcases after with _ | ⟨token, after⟩
  · rfl
  · have htext := h token rfl
    simp only [typeBeginnings, List.mem_cons, List.not_mem_nil, or_false, not_or] at htext
    simp [arrowAhead, arrowFrom, Token.is, htext]

/-- A marker that is taken off is put back. -/
theorem Component.text_bare (component : Component) : component.bare.text = component.fullText := by
  rw [Component.bare]
  split
  · next optionality hlast =>
    obtain ⟨suffix, hsuffix, hmarker⟩ := Option.bind_eq_some_iff.mp hlast
    have hsplit := List.dropLast_append_getLast? suffix hsuffix
    have htext : suffix.text = optionality.marker := by
      cases suffix <;> cases hmarker <;> rfl
    have hmarked : Bare.text
        { base := { component with suffixes := component.suffixes.dropLast }.fullText
          optionality, signature? := parenthesizedSignature? component } =
        { component with suffixes := component.suffixes.dropLast }.fullText ++ suffix.text := by
      cases optionality <;> simp_all [Bare.text, SwiftType.text, wrapped, Optionality.marker]
    have hjoin : String.join (component.suffixes.map (·.text)) =
        String.join (component.suffixes.dropLast.map (·.text)) ++ suffix.text := by
      conv_lhs => rw [← hsplit, List.map_append, String.join_append]
      simp
    rw [hmarked, Component.fullText, Component.fullText, hjoin, String.append_assoc]
  · rfl

private theorem continues_afterMarks (items : List (List Token)) :
    Continues (afterMarks ampersand items) := by
  cases items with
  | nil =>
    rintro _ ⟨⟩
  | cons => exact .of_cons (by decide)

private theorem reads_partTurns {others : List Component} {items : List (List Token)}
    (h : List.Forall₂ Component.Restored others items) (depth : Nat)
    (hdepth : (afterMarks ampersand items).length ≤ depth + 1) (scope : Scope)
    {after : List Token} (hafter : Avoids typeBeginnings after) :
    Reads (repeated (partTurn (readWithin depth))) scope (afterMarks ampersand items ++ after)
      others after := by
  have hlengths : ∀ item ∈ items, item.length ≤ depth + 1 := fun item hitem ↦
    (length_le_afterMarks ampersand hitem).trans hdepth
  have hparts := forall₂_and_of_forall_mem h hlengths
  have havoids : Avoids suffixBeginnings after := hafter.mono (by decide)
  rw [afterMarks, List.flatMap_def]
  refine .repeated_flatten (List.forall₂_map_right_iff.mpr (hparts.imp ?_)) havoids ?_
  · rintro read item ⟨hread, hlength⟩
    refine ⟨List.cons_ne_nil _ _, fun back ↦ .of_cons (by decide), fun back hback ↦ ?_⟩
    have hread := hread.reads depth hlength scope back hback
    rw [List.cons_append, partTurn, reads_accept_bind_iff_of_is rfl]
    exact hread.bind_iff.mpr .pure
  · have hstands : stands ["&"] after = false := hafter.stands_eq_false (by decide)
    exact (reads_accept_bind_iff_of_not_stands hstands).mpr .pure

section Restored

variable {word : String} {front item : List Token} {first : Component} (hword : Leads word front)
  (hfirst : first.Restored item)
include hfirst

include hword in
theorem Component.Restored.function {effects : List String} {items : List (List Token)}
    {result : SwiftType} {last : List Token} (hround : stands ["("] item = true)
    (hsuffixes : first.suffixes = []) (heffects : List.Forall₂ RestoresEffect effects items)
    (hresult : result.Restored last) :
    Bare.Restored
      { base := word ++ first.fullText ++ String.join (effects.map (" " ++ ·)) ++ " -> " ++
          result.declared
        needsParens := true
        signature? := some ⟨argumentTypes (first.elements?.getD []), effects⟩ }
      (front ++ (item ++ (items.flatten ++ inLine .operator "->" :: last))) where
  spells tail htail := by
    have hsymbol : (Kind.operator, "->") ∈ closedSymbols := by decide
    have harrow : Spells tail (" -> ".toList ++ result.declared.toList)
        (inLine .operator "->" :: last) :=
      .blank (.symbol hsymbol (.blank (hresult.spells tail htail)))
    have hends : EndsWord (" -> ".toList ++ result.declared.toList ++ tail) :=
      .of_cons (by decide +kernel)
    obtain ⟨hjoined, hends⟩ :=
      Spells.spacedOut (heffects.imp fun _ _ heffect ↦ heffect.spells) hends
    rw [← List.append_assoc] at hends
    have hback := (hfirst.spells _ hends).append (hjoined.append harrow)
    have htext : (word ++ first.fullText ++ String.join (effects.map (" " ++ ·)) ++ " -> " ++
        result.declared).toList = word.toList ++ (first.fullText.toList ++
        ((String.join (effects.map (" " ++ ·))).toList ++ (" -> ".toList ++
        result.declared.toList))) := by
      simp only [String.toList_append, List.append_assoc]
    exact htext ▸ (hword.spells _).append hback
  reads depth hdepth scope after hafter := by
    simp only [List.length_append, List.length_cons] at hdepth
    have hitem : 0 < item.length := List.length_pos_iff.mpr hfirst.begins.ne_nil
    have hlength : last.length ≤ depth := by omega
    obtain ⟨hends, harrow⟩ := arrowAhead_effects heffects (last ++ after)
    have hbegins :=
      hfirst.begins.append_of_round hround (items.flatten ++ inLine .operator "->" :: last)
    have hlead := hword.reads hbegins scope hafter
    have hread := hfirst.reads depth (by omega) scope _ (hends.mono (by decide))
    have hrepeated := reads_effects heffects depth (by omega) scope (last ++ after)
    have hlast := hresult.reads_within hlength scope hafter
    -- Leading words, parameters, effects and arrow are read in turn, and then the result.
    rw [bare_eq, List.append_assoc]
    refine hlead.bind_iff.mpr (reads_sees_bind_iff.mpr ?_)
    rw [List.append_assoc, List.append_assoc]
    refine hread.bind_iff.mpr (reads_ahead_bind_iff.mpr (reads_ite_iff.mpr (.inl ⟨?_, ?_⟩)))
    · rw [stands_append hfirst.begins.ne_nil, hround, hsuffixes]
      exact harrow
    · refine hrepeated.bind_iff.mpr ((reads_expect_bind_iff_of_is rfl).mpr (hlast.bind_iff.mpr ?_))
      exact .pure
  beginsType := hword.beginsType (hfirst.begins.append_of_round hround _)

include hword in
theorem Component.Restored.composition {others : List Component} {items : List (List Token)}
    (hne : others ≠ []) (hothers : List.Forall₂ Component.Restored others items) :
    Bare.Restored
      { base := word ++ String.intercalate " & " ((first :: others).map (·.fullText))
        needsParens := true }
      (front ++ (item ++ afterMarks ampersand items)) where
  spells tail htail := by
    have hparts := Spells.listed separates_ampersand hfirst.spells
      (List.forall₂_map_left_iff.mpr (hothers.imp fun _ _ h ↦ h.spells)) htail
    have htext : (word ++ String.intercalate " & " ((first :: others).map (·.fullText))).toList =
      word.toList ++ (String.intercalate " & " ((first :: others).map (·.fullText))).toList :=
      String.toList_append
    exact htext ▸ (hword.spells _).append hparts
  reads depth hdepth scope after hafter := by
    simp only [List.length_append] at hdepth
    have hbegins := hfirst.begins.append (continues_afterMarks items)
    have hlead := hword.reads hbegins scope hafter
    obtain ⟨second, others, rfl⟩ := List.exists_cons_of_ne_nil hne
    cases hothers with
    | @cons _ item' _ items hsecond hothers =>
      have hrest : Avoids suffixBeginnings (afterMarks ampersand (item' :: items) ++ after) :=
        .of_cons (by decide)
      have hread := hfirst.reads depth (by omega) scope _ hrest
      have hrepeated := reads_partTurns (.cons hsecond hothers) depth (by omega) scope hafter.avoids
      rw [bare_eq, List.append_assoc]
      refine hlead.bind_iff.mpr (reads_sees_bind_iff.mpr ?_)
      rw [List.append_assoc]
      refine hread.bind_iff.mpr (reads_ahead_bind_iff.mpr ?_)
      have harrow : arrowAhead (afterMarks ampersand (item' :: items) ++ after) = false := rfl
      rw [harrow, Bool.and_false, if_neg Bool.false_ne_true]
      refine reads_sees_bind_iff.mpr (reads_ite_iff.mpr (.inl ⟨rfl, ?_⟩))
      exact hrepeated.bind_iff.mpr .pure
  beginsType := hword.beginsType (hfirst.begins.append (continues_afterMarks items))

/-- A component in front of what is no part of its type. -/
theorem Component.Restored.reads_bareAfter {depth : Nat} (hdepth : item.length ≤ depth + 1)
    (word : String) (scope : Scope) {after : List Token} (hafter : Avoids typeBeginnings after) :
    Reads (bareAfter (readWithin depth) word) scope (item ++ after)
      (if word ≠ "" then { base := word ++ first.fullText, needsParens := true } else first.bare)
      after := by
  have hread := hfirst.reads depth hdepth scope after (hafter.mono (by decide))
  have hpart : stands ["&"] after = false := hafter.stands_eq_false (by decide)
  refine reads_sees_bind_iff.mpr (hread.bind_iff.mpr ?_)
  split_ifs <;> simp [hafter.arrowAhead_eq_false, hpart]

include hword in
theorem Component.Restored.led (hne : word ≠ "") :
    Bare.Restored { base := word ++ first.fullText, needsParens := true } (front ++ item) where
  spells tail htail := by
    have htext : (word ++ first.fullText).toList = word.toList ++ first.fullText.toList :=
      String.toList_append
    exact htext ▸ (hword.spells _).append (hfirst.spells tail htail)
  reads depth hdepth scope after hafter := by
    rw [List.length_append] at hdepth
    have hlength : item.length ≤ depth + 1 := by omega
    have hread := hfirst.reads_bareAfter hlength word scope hafter.avoids
    rw [if_pos hne] at hread
    rw [bare_eq, List.append_assoc]
    exact (hword.reads hfirst.begins scope hafter).bind_iff.mpr hread
  beginsType := hword.beginsType hfirst.begins

theorem Component.Restored.alone : Bare.Restored first.bare item where
  spells tail htail := by
    rw [first.text_bare]
    exact hfirst.spells tail htail
  reads depth hdepth scope after hafter := by
    have hread := hfirst.reads_bareAfter hdepth "" scope hafter.avoids
    rw [if_neg (by simp)] at hread
    exact (Leads.none.reads hfirst.begins scope hafter).bind_iff.mpr hread
  beginsType := .plain hfirst.begins

end Restored

section Rules

variable {whole : List Token} {type : Reader SwiftType} (htame : Tame whole)
  (hspelled : ∀ token ∈ whole, Spelled token.kind token.text.toList)
  (htype : ∀ scope tokens, Keeps whole (fun type ↦ ∃ item, type.Restored item) type scope tokens)
include hspelled htype

theorem keeps_partTurns {scope : Scope} {tokens : List Token} (hpart : stands ["&"] tokens = true) :
    Keeps whole (fun others ↦ others ≠ [] ∧ ∀ other ∈ others, ∃ item, other.Restored item)
      (repeated (partTurn type)) scope tokens := by
  have hturn (scope : Scope) (tokens : List Token) :
      Keeps whole (Turn.All fun read : Component ↦ ∃ item, read.Restored item) (partTurn type)
        scope tokens := by
    refine .bind .accept fun seen mid ↦ .ite (fun _ ↦ ?_) fun _ ↦ .pure fun _ ↦ trivial
    refine .bind (keeps_component hspelled htype scope mid) fun read mid ↦ .pure ?_
    rintro ⟨-, item, hitem, -⟩ -
    exact ⟨item, hitem⟩
  refine .and_of_reads (.repeated hturn) ?_
  -- The ampersand in front is taken by the first turn, which therefore has an item.
  rintro others rest hread rfl
  obtain ⟨token, back, rfl, htoken⟩ := stands_singleton_eq_true_iff.mp hpart
  rcases reads_repeatFrom_iff.mp hread with ⟨hstop, -⟩ | ⟨_, -, hnil⟩ | ⟨_, _, _, -, -, -, hnil⟩ |
    ⟨_, -, -, hnil⟩
  · rw [partTurn, reads_accept_bind_iff_of_is htoken] at hstop
    obtain ⟨read, mid, -, hpure⟩ := reads_bind_iff.mp hstop
    cases (reads_pure_iff.mp hpure).1
  all_goals cases hnil

include htame

theorem keeps_function {word : String} {front : List Token} (hword : Leads word front)
    {first : Component} (hsuffixes : first.suffixes = []) (scope : Scope) (tokens : List Token) :
    Keeps whole (fun read ↦ ∀ item, first.Restored item → stands ["("] item = true →
      ∃ back, read.Restored (front ++ (item ++ back))) (function type word first) scope tokens := by
  refine .bind (.repeated (keeps_functionEffect htame hspelled)) fun effects mid ↦
    .bind .expect fun arrow mid ↦ .bind (htype scope mid) fun result mid ↦ .pure ?_
  rintro ⟨last, hlast⟩ - heffects item hitem hround
  obtain ⟨items, hitems⟩ := exists_forall₂_of_forall_exists heffects
  exact ⟨_, hitem.function hword hround hsuffixes hitems hlast⟩

theorem keeps_bareAfter {word : String} {front : List Token} (hword : Leads word front)
    (scope : Scope) (tokens : List Token) :
    Keeps whole (fun read ↦ whole ≠ [] ∧ ∃ item, read.Restored (front ++ item) ∧
      stands ["("] item = stands ["("] tokens) (bareAfter type word) scope tokens := by
  refine .sees_bind (.bind (keeps_component hspelled htype scope tokens) fun first mid ↦
    .ahead_bind (.ite (fun hfunction ↦ ?_) fun _ ↦ .sees_bind (.ite (fun hpart ↦ ?_) fun _ ↦
      .ite (fun hled ↦ .pure ?_) fun hempty ↦ .pure ?_)))
  · rw [Bool.and_eq_true, Bool.and_eq_true, List.isEmpty_iff] at hfunction
    obtain ⟨⟨hround, hsuffixes⟩, -⟩ := hfunction
    refine (keeps_function htame hspelled htype hword hsuffixes scope mid).mono fun read hread ↦ ?_
    rintro ⟨hne, item, hitem, hround'⟩
    obtain ⟨back, hback⟩ := hread item hitem (hround'.trans hround)
    exact ⟨hne, _, hback, (stands_append hitem.begins.ne_nil back).trans hround'⟩
  · refine .bind (keeps_partTurns hspelled htype hpart) fun others mid ↦ .pure ?_
    rintro ⟨hothers, hrestored⟩ ⟨hne, item, hitem, hround⟩
    obtain ⟨items, hitems⟩ := exists_forall₂_of_forall_exists hrestored
    refine ⟨hne, _, hitem.composition hword hothers hitems, ?_⟩
    rw [stands_append hitem.begins.ne_nil, hround]
  · rintro ⟨hne, item, hitem, hround⟩
    exact ⟨hne, item, hitem.led hword hled, hround⟩
  · rintro ⟨hne, item, hitem, hround⟩
    rw [not_not] at hempty
    subst hempty
    refine ⟨hne, item, ?_, hround⟩
    rw [hword.eq_nil]
    exact hitem.alone

theorem keeps_bare (scope : Scope) (tokens : List Token) :
    Keeps whole (fun read ↦ whole ≠ [] ∧ ∃ item, read.Restored item ∧
      (stands ["("] item = true → stands ["("] tokens = true)) (bare type) scope tokens := by
  intro read rest hread
  rw [bare_eq] at hread
  obtain ⟨word, mid, hlead, hnext⟩ := reads_bind_iff.mp hread
  rw [lead, reads_ahead_bind_iff] at hlead
  rcases reads_ite_iff.mp hlead with ⟨hmodifies, hword⟩ | ⟨-, hword⟩
  · rcases tokens with _ | ⟨token, _ | ⟨second, tokens⟩⟩
    · cases hmodifies
    · cases hmodifies
    rw [modifies, Bool.and_eq_true, decide_eq_true_eq] at hmodifies
    have hpure := reads_next?_bind_iff.mp hword
    obtain ⟨rfl, rfl⟩ := reads_pure_iff.mp hpure
    have hleads : Leads (token.text ++ " ") _ := .word hmodifies.1
    obtain ⟨consumed, htokens, hgood⟩ := keeps_bareAfter htame hspelled htype hleads scope _ hnext
    refine ⟨token :: consumed, congrArg (token :: ·) htokens, fun hpart ↦ ?_⟩
    obtain ⟨hne, item, hitem, -⟩ := hgood ((List.suffix_cons token consumed).isInfix.trans hpart)
    refine ⟨hne, _, hitem, fun hround ↦ ?_⟩
    have htext : token.text ≠ "(" := by
      rintro heq
      rw [heq] at hmodifies
      exact absurd hmodifies.1 (by decide)
    simp [htext] at hround
  · obtain ⟨rfl, rfl⟩ := reads_pure_iff.mp hword
    obtain ⟨consumed, htokens, hgood⟩ := keeps_bareAfter htame hspelled htype .none scope _ hnext
    refine ⟨consumed, htokens, fun hpart ↦ ?_⟩
    obtain ⟨hne, item, hitem, hround⟩ := hgood hpart
    exact ⟨hne, item, hitem, fun h ↦ hround.symm.trans h⟩

end Rules

end SwiftType

end TestDouble
