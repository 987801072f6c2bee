import TestDouble.Proofs.Reader.Keeps
import TestDouble.Proofs.SwiftType.Rules
import TestDouble.Proofs.Token.Spells

/-!
# Texts that restore what they are made of

The text of a type is made of parts, and so are its tokens. A part restores the value it stands for
if it is spelled by its tokens and the rule of the grammar reads the value from these tokens again,
whatever follows, unless that can be taken for more of the part. Each rule has its own list of what
may be taken for more.

The tokens of a text stand on one line. So what a rule decides by looking for line breaks is decided
in favour of what was read the first time.
-/

namespace TestDouble

open Reader Token

namespace SwiftType

/-! ## What may follow -/

/-- The tokens begin with none of the given words and symbols. -/
def Avoids (texts : List String) (tokens : List Token) : Prop :=
  ∀ token ∈ tokens.head?, token.text ∉ texts

/-- What goes on a type with its suffixes. -/
def suffixBeginnings : List String :=
  ["<", "?", "!", "."]

/-- What goes on a type. -/
def typeBeginnings : List String :=
  ["<", "?", "!", ".", "&", "->", "async", "throws"]

/-- What follows a type: nothing that goes on with it, and nothing that is a type itself. -/
structure EndsType (after : List Token) : Prop where
  avoids : Avoids typeBeginnings after
  not_startsType : ∀ token ∈ after.head?, startsType token = false

theorem Avoids.of_cons {texts : List String} {token : Token} {after : List Token}
    (h : token.text ∉ texts) : Avoids texts (token :: after) := by
  rintro _ ⟨⟩
  exact h

theorem Avoids.mono {texts others : List String} {after : List Token} (h : Avoids texts after)
    (hsubset : ∀ text ∈ others, text ∈ texts) : Avoids others after :=
  fun token htoken hmem ↦ h token htoken (hsubset _ hmem)

theorem Avoids.stands_eq_false {texts : List String} {text : String} {after : List Token}
    (h : Avoids texts after) (htext : text ∈ texts) : stands [text] after = false := by
  rcases after with _ | ⟨token, after⟩
  · rfl
  · have hne : token.text ≠ text := fun heq ↦ h token rfl (heq ▸ htext)
    simp [stands, Token.is, hne]

theorem Avoids.adjoins_eq_false {texts : List String} {text : String} {after : List Token}
    (h : Avoids texts after) (htext : text ∈ texts) : adjoins text after = false :=
  adjoins_of_not_stands (h.stands_eq_false htext)

/-- The marks of suffixes. -/
def suffixSymbols : List (Kind × String) :=
  [(.operator, "?"), (.operator, "!"), (.punctuation, ".")]

/-- The tokens begin with a mark that goes on with a type, if there are any. -/
def Continues (tokens : List Token) : Prop :=
  ∀ token ∈ tokens.head?,
    (token.kind, token.text) ∈ (.punctuation, "<") :: (.punctuation, "&") :: suffixSymbols

theorem Continues.of_cons {token : Token} {tokens : List Token}
    (h : (token.kind, token.text) ∈ (.punctuation, "<") :: (.punctuation, "&") :: suffixSymbols) :
    Continues (token :: tokens) := by
  rintro _ ⟨⟩
  exact h

theorem Continues.append {front back : List Token} (h : Continues front) (hback : Continues back) :
    Continues (front ++ back) := by
  cases front with
  | nil => exact hback
  | cons token front => exact .of_cons (h token rfl)

theorem Continues.head_endsWord {tokens : List Token} (h : Continues tokens) :
    ∀ token ∈ tokens.head?, EndsWord token.text.toList := by
  have hall : ∀ entry ∈ (.punctuation, "<") :: (.punctuation, "&") :: suffixSymbols,
      entry.2.toList.head?.all endsWord = true := by
    decide +kernel
  intro token htoken d hd
  have hends := hall _ (h token htoken)
  rwa [Option.mem_def.mp hd] at hends

/-- Such a mark is neither a type nor the colon behind a label. -/
theorem Continues.not_startsType {tokens : List Token} (h : Continues tokens) :
    ∀ token ∈ tokens.head?, startsType token = false ∧ token.is ":" = false := by
  have hall : ∀ entry ∈ (.punctuation, "<") :: (.punctuation, "&") :: suffixSymbols,
      entry.1 ≠ .identifier ∧ entry.2 ∉ ["(", "[", ":"] := by
    decide
  intro token htoken
  obtain ⟨hkind, htext⟩ := hall _ (h token htoken)
  simp only [List.mem_cons, List.not_mem_nil, or_false, not_or] at htext
  simp [startsType, Token.is, hkind, htext]

/-! ## Values, texts and tokens -/

/-- The text is spelled by the tokens, and the rule reads the value from these, given readers for as
many types inside one another as there are tokens. -/
structure Restores {α : Type} (rule : Reader SwiftType → Reader α) (stops : List Token → Prop)
    (text : String) (a : α) (tokens : List Token) : Prop where
  spells : ∀ tail, EndsWord tail → Spells tail text.toList tokens
  reads : ∀ depth, tokens.length ≤ depth + 1 → ∀ scope after, stops after →
    Reads (rule (readWithin depth)) scope (tokens ++ after) a after

/-- The tokens do not begin with the label of a tuple element. -/
def Unlabelled : List Token → Prop
  | first :: second :: rest => first.kind = .identifier →
    second.is ":" = false ∧ (second.kind = .identifier → stands [":"] rest = false)
  | _ => True

/-- A type is restored by its text. -/
structure Restored (type : SwiftType) (tokens : List Token) : Prop extends
    Restores annotated EndsType type.declared type tokens where
  ne_nil : tokens ≠ []
  /-- A tuple that begins here does not end here. -/
  begins : Avoids [")", ":"] tokens
  unlabelled : ∀ after, EndsType after → stands [":"] after = false → Unlabelled (tokens ++ after)

theorem Restored.reads_within {type : SwiftType} {tokens : List Token} (h : type.Restored tokens)
    {depth : Nat} (hdepth : tokens.length ≤ depth) (scope : Scope) {after : List Token}
    (hafter : EndsType after) : Reads (readWithin depth) scope (tokens ++ after) type after := by
  obtain ⟨n, hn⟩ := Nat.exists_eq_add_one_of_ne_zero (mt List.eq_nil_of_length_eq_zero h.ne_nil)
  obtain ⟨depth, rfl⟩ : ∃ d, depth = d + 1 := ⟨depth - 1, by omega⟩
  exact h.reads depth hdepth scope after hafter

end SwiftType

/-! ## Items one by one -/

theorem exists_forall₂_of_forall_exists {α β : Type} {R : α → β → Prop} {as : List α}
    (h : ∀ a ∈ as, ∃ b, R a b) : ∃ bs, List.Forall₂ R as bs := by
  induction as with
  | nil => exact ⟨[], .nil⟩
  | cons a as ih =>
    obtain ⟨b, hb⟩ := h a List.mem_cons_self
    obtain ⟨bs, hbs⟩ := ih fun a ha ↦ h a (List.mem_cons_of_mem _ ha)
    exact ⟨b :: bs, .cons hb hbs⟩

theorem forall₂_and_of_forall_mem {α β : Type} {R : α → β → Prop} {p : β → Prop} {as : List α}
    {bs : List β} (h : List.Forall₂ R as bs) (hp : ∀ b ∈ bs, p b) :
    List.Forall₂ (fun a b ↦ R a b ∧ p b) as bs := by
  induction h with
  | nil => exact .nil
  | cons hab _ ih =>
    obtain ⟨hb, hbs⟩ := List.forall_mem_cons.mp hp
    exact .cons ⟨hab, hb⟩ (ih hbs)

/-! ## Separators -/

namespace Token

/-- Items that each have a mark before them. -/
def afterMarks (mark : Token) (items : List (List Token)) : List Token :=
  items.flatMap (mark :: ·)

theorem length_le_afterMarks (mark : Token) {item : List Token} {items : List (List Token)}
    (h : item ∈ items) : item.length ≤ (afterMarks mark items).length := by
  have hmem : mark :: item ∈ items.map (mark :: ·) := List.mem_map_of_mem h
  have hsublist := List.sublist_flatten_of_mem hmem
  rw [afterMarks, List.flatMap_def]
  exact (List.sublist_cons_self _ _).length_le.trans hsublist.length_le

/-- The mark is what the separator is spelled by. -/
structure Separates (separator : String) (mark : Token) : Prop where
  spells : ∀ {tail text : List Char} {tokens : List Token}, Spells tail text tokens →
    Spells tail (separator.toList ++ text) (mark :: tokens)
  endsWord : ∀ text, EndsWord (separator.toList ++ text)

def comma : Token :=
  inLine .punctuation ","

theorem separates_comma : Separates ", " comma where
  spells h := by
    have hcomma : (Kind.punctuation, ",") ∈ closedSymbols := by decide
    exact .symbol hcomma (.blank h)
  endsWord _ := .of_cons (by decide +kernel)

def ampersand : Token :=
  inLine .punctuation "&"

theorem separates_ampersand : Separates " & " ampersand where
  spells h := .blank (.ampersand h)
  endsWord _ := .of_cons (by decide +kernel)

private theorem toList_intercalate (separator first : String) (others : List String) :
    (String.intercalate separator (first :: others)).toList =
      first.toList ++ others.flatMap fun text ↦ separator.toList ++ text.toList := by
  induction others generalizing first with
  | nil => simp
  | cons second others ih =>
    rw [String.intercalate_cons_cons, String.toList_append, String.toList_append, ih,
      List.flatMap_cons, List.append_assoc, List.append_assoc]

/-- Texts are listed as their tokens are. -/
theorem Spells.listed {separator : String} {mark : Token} (hmark : Separates separator mark)
    {text : String} {texts : List String} {item : List Token} {items : List (List Token)}
    (hfirst : ∀ tail, EndsWord tail → Spells tail text.toList item)
    (hothers : List.Forall₂
      (fun text tokens ↦ ∀ tail, EndsWord tail → Spells tail text.toList tokens) texts items)
    {tail : List Char} (htail : EndsWord tail) :
    Spells tail (String.intercalate separator (text :: texts)).toList
      (item ++ afterMarks mark items) := by
  have hlater : Spells tail (texts.flatMap fun text ↦ separator.toList ++ text.toList)
        (afterMarks mark items) ∧
      EndsWord ((texts.flatMap fun text ↦ separator.toList ++ text.toList) ++ tail) := by
    induction hothers with
    | nil => exact ⟨.nil, htail⟩
    | cons hitem _ ih =>
      have hspells := hmark.spells ((hitem _ ih.2).append ih.1)
      rw [List.flatMap_cons, afterMarks, List.flatMap_cons, List.append_assoc, List.append_assoc]
      exact ⟨hspells, hmark.endsWord _⟩
  rw [toList_intercalate]
  exact (hfirst _ hlater.2).append hlater.1

end Token

namespace SwiftType

theorem EndsType.cons {token : Token} {after : List Token} (htext : token.text ∉ typeBeginnings)
    (hstarts : startsType token = false) : EndsType (token :: after) where
  avoids := .of_cons htext
  not_startsType := by
    rintro _ ⟨⟩
    exact hstarts

theorem Restored.reads_separated {first : SwiftType} {others : List SwiftType}
    {item : List Token} {items : List (List Token)} (hfirst : first.Restored item)
    (hothers : List.Forall₂ Restored others items) {depth : Nat}
    (hdepth : (item ++ afterMarks comma items).length ≤ depth) (scope : Scope) {after : List Token}
    (hafter : EndsType after) (hcomma : stands [","] after = false) :
    Reads (separated (readWithin depth)) scope (item ++ afterMarks comma items ++ after)
      (first :: others) after := by
  have hcommas (back : List Token) : EndsType (comma :: back) :=
    .cons (by decide) rfl
  have hrest : EndsType (afterMarks comma items ++ after) := by
    cases items with
    | nil => exact hafter
    | cons item items => exact hcommas _
  rw [List.length_append] at hdepth
  have hlength : item.length ≤ depth := by omega
  have hread := hfirst.reads_within hlength scope hrest
  rw [List.append_assoc]
  refine hread.bind_iff.mpr ?_
  have hothers : Reads (repeated do
      if ← accept "," then return Turn.more (← readWithin depth) else return .stop) scope
      (afterMarks comma items ++ after) others after := by
    have hlengths : ∀ item ∈ items, item.length ≤ depth := fun item hitem ↦
      (length_le_afterMarks comma hitem).trans (by omega)
    have hparts := forall₂_and_of_forall_mem hothers hlengths
    rw [afterMarks, List.flatMap_def]
    refine .repeated_flatten (List.forall₂_map_right_iff.mpr (hparts.imp ?_)) hafter ?_
    · rintro type item ⟨hitem, hlength⟩
      refine ⟨List.cons_ne_nil _ _, fun back ↦ hcommas _, fun back hback ↦ ?_⟩
      have hread := hitem.reads_within hlength scope hback
      rw [List.cons_append, reads_accept_bind_iff_of_is rfl]
      exact hread.bind_iff.mpr .pure
    · exact (reads_accept_bind_iff_of_not_stands hcomma).mpr .pure
  exact hothers.bind_iff.mpr .pure

end SwiftType

end TestDouble
