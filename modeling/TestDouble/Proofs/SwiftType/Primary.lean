import TestDouble.Proofs.SwiftType.Compositional
import TestDouble.Proofs.SwiftType.Restores

/-!
# Simple types

A simple type is a name with generic arguments or a type in brackets. Its text restores it if the
texts of the types inside restore those.
-/

namespace TestDouble

open Reader Token

namespace SwiftType

/-! ## Generic arguments -/

private theorem restores_genericArguments {first : SwiftType} {others : List SwiftType}
    {item : List Token} {items : List (List Token)} (hfirst : first.Restored item)
    (hothers : List.Forall₂ Restored others items) :
    let text := "<" ++ String.intercalate ", " ((first :: others).map declared) ++ ">"
    Restores genericArguments (Avoids ["<"]) text text
      (inLine .punctuation "<" :: (item ++ afterMarks comma items) ++
        [inLine .punctuation ">"]) where
  spells tail htail := by
    have hends : EndsWord (">".toList ++ tail) := .of_cons (by decide +kernel)
    have hclosed : Spells tail ">".toList [inLine .punctuation ">"] := .lastSymbol (by decide)
    have hitems := Spells.listed separates_comma hfirst.spells
      (List.forall₂_map_left_iff.mpr (hothers.imp fun _ _ h ↦ h.spells)) hends
    have hopener : (Kind.punctuation, "<") ∈ closedSymbols := by decide
    rw [String.toList_append, String.toList_append, List.append_assoc]
    exact .symbol hopener (hitems.append hclosed)
  reads depth hdepth scope after hafter := by
    have hlength : (item ++ afterMarks comma items).length ≤ depth := by simp at hdepth ⊢; omega
    have hcloser : EndsType (inLine .punctuation ">" :: after) := .cons (by decide) rfl
    have hitems := hfirst.reads_separated hothers hlength scope hcloser rfl
    rw [genericArguments, reads_ahead_bind_iff, List.append_assoc]
    refine reads_ite_iff.mpr (.inl ⟨rfl, ?_⟩)
    refine reads_skip_bind_iff.mpr (hitems.bind_iff.mpr ?_)
    exact (reads_expect_bind_iff_of_is rfl).mpr .pure

private theorem restores_no_genericArguments :
    Restores genericArguments (Avoids ["<"]) "" "" [] where
  spells _ _ := .nil
  reads depth _ scope after hafter := by
    have hadjoins : adjoins "<" after = false := hafter.adjoins_eq_false (by decide)
    simp [genericArguments, hadjoins]

section Rules

variable {whole : List Token} {type : Reader SwiftType}
  (htype : ∀ scope tokens, Keeps whole (fun type ↦ ∃ item, type.Restored item) type scope tokens)
include htype

theorem keeps_genericArguments (scope : Scope) (tokens : List Token) :
    Keeps whole (fun text ↦ ∃ item, Restores genericArguments (Avoids ["<"]) text text item ∧
      Continues item) (genericArguments type) scope tokens := by
  refine .ahead_bind (.ite (fun hadjoins ↦ ?_) fun _ ↦ .pure ⟨[], restores_no_genericArguments, ?_⟩)
  swap
  · rintro _ ⟨⟩
  rcases tokens with _ | ⟨token, tokens⟩
  · cases hadjoins
  refine .skip_bind (.bind (.separated htype) fun arguments mid ↦
    .bind .expect fun closer mid ↦ .pure ?_)
  rintro - ⟨hne, harguments⟩ -
  obtain ⟨first, others, rfl⟩ := List.exists_cons_of_ne_nil hne
  obtain ⟨items, hitems⟩ := exists_forall₂_of_forall_exists harguments
  cases hitems with
  | cons hfirst hothers =>
    refine ⟨_, restores_genericArguments hfirst hothers, ?_⟩
    rintro _ ⟨⟩
    decide

end Rules

/-! ## Elements -/

/-- The tokens of a label. -/
inductive Labels : String → List Token → Prop
  | none : Labels "" []
  | one {name : String} : Spelled .identifier name.toList →
      Labels (name ++ ": ") [inLine .identifier name, inLine .punctuation ":"]
  | two {outer inner : String} : Spelled .identifier outer.toList →
      Spelled .identifier inner.toList → Labels (outer ++ " " ++ inner ++ ": ")
        [inLine .identifier outer, inLine .identifier inner, inLine .punctuation ":"]

theorem keeps_elementLabel {whole : List Token}
    (hspelled : ∀ token ∈ whole, Spelled token.kind token.text.toList) (scope : Scope)
    (tokens : List Token) :
    Keeps whole (fun label ↦ ∃ item, Labels label item) elementLabel scope tokens := by
  refine .ahead_bind ?_
  rcases tokens with _ | ⟨first, _ | ⟨second, tokens⟩⟩
  · exact .pure ⟨[], .none⟩
  · exact .pure ⟨[], .none⟩
  · refine .ite (fun hone ↦ ?_) fun _ ↦ .ite (fun htwo ↦ ?_) fun _ ↦ .pure ⟨[], .none⟩
    · refine .skip_bind (.skip_bind (.pure fun _ hfirst ↦ ⟨_, .one ?_⟩))
      exact hone.1 ▸ hspelled first hfirst
    · rcases tokens with _ | ⟨third, tokens⟩
      · cases htwo.2.2
      · refine .skip_bind (.skip_bind (.skip_bind (.pure fun _ hsecond hfirst ↦ ⟨_, .two ?_ ?_⟩)))
        · exact htwo.1 ▸ hspelled first hfirst
        · exact htwo.2.1 ▸ hspelled second hsecond

theorem Labels.spells {label : String} {item : List Token} (h : Labels label item)
    (tail : List Char) : Spells tail label.toList item := by
  have hcolon : Spells tail (":".toList ++ [' ']) [inLine .punctuation ":"] :=
    .symbol (by decide) (.blank .nil)
  cases h with
  | none => exact .nil
  | @one name hname =>
    rw [String.toList_append]
    have hends : EndsWord (":".toList ++ [' '] ++ tail) := .of_cons (by decide +kernel)
    exact .word hname (by decide) hends hcolon
  | @two outer inner houter hinner =>
    rw [String.toList_append, String.toList_append, String.toList_append, List.append_assoc,
      List.append_assoc]
    refine .word houter (by decide) ?_ (.blank (.word hinner (by decide) ?_ hcolon)) <;>
      exact .of_cons (by decide +kernel)

theorem Labels.begins {label : String} {names item : List Token} (h : Labels label names)
    (hitem : Avoids [")"] item) : Avoids [")"] (names ++ item) := by
  have hcloser : (Kind.punctuation, ")") ∈ closedSymbols := by decide
  cases h with
  | none => exact hitem
  | one hname =>
    have hne := hname.ne_closedSymbol hcloser (by decide)
    exact .of_cons (mt List.mem_singleton.mp hne)
  | two houter =>
    have hne := houter.ne_closedSymbol hcloser (by decide)
    exact .of_cons (mt List.mem_singleton.mp hne)

theorem Labels.reads {label : String} {item : List Token} (h : Labels label item)
    {rest : List Token} (hrest : Unlabelled rest) (scope : Scope) :
    Reads elementLabel scope (item ++ rest) label rest := by
  refine reads_ahead_bind_iff.mpr ?_
  cases h with
  | none =>
    rcases rest with _ | ⟨first, _ | ⟨second, rest⟩⟩
    · exact .pure
    · exact .pure
    · have hone : ¬ (first.kind = .identifier ∧ second.is ":" = true) := by
        rintro ⟨hfirst, hsecond⟩
        simp [(hrest hfirst).1] at hsecond
      have htwo : ¬ (first.kind = .identifier ∧ second.kind = .identifier ∧
          stands [":"] rest = true) := by
        rintro ⟨hfirst, hsecond, hthird⟩
        simp [(hrest hfirst).2 hsecond] at hthird
      exact reads_ite_iff.mpr (.inr ⟨hone, reads_ite_iff.mpr (.inr ⟨htwo, .pure⟩)⟩)
  | one =>
    refine reads_ite_iff.mpr (.inl ⟨⟨rfl, rfl⟩, ?_⟩)
    exact reads_skip_bind_iff.mpr (reads_skip_bind_iff.mpr .pure)
  | @two outer inner _ hinner =>
    have hmem : (Kind.punctuation, ":") ∈ closedSymbols := by decide
    have hcolon : inner ≠ ":" := hinner.ne_closedSymbol hmem (by decide)
    refine reads_ite_iff.mpr (.inr ⟨?_, reads_ite_iff.mpr (.inl ⟨⟨rfl, rfl, rfl⟩, ?_⟩)⟩)
    · rintro ⟨-, hsecond⟩
      simp [hcolon] at hsecond
    · exact reads_skip_bind_iff.mpr (reads_skip_bind_iff.mpr (reads_skip_bind_iff.mpr .pure))

/-- What follows an element of a tuple. -/
def EndsElement (after : List Token) : Prop :=
  ∃ text ∈ [",", ")"], ∃ back, after = inLine .punctuation text :: back

theorem EndsElement.endsType {after : List Token} (h : EndsElement after) : EndsType after := by
  obtain ⟨text, htext, back, rfl⟩ := h
  have hall : ∀ text ∈ [",", ")"], text ∉ typeBeginnings ∧
      startsType (inLine .punctuation text) = false := by decide
  exact .cons (hall text htext).1 (hall text htext).2

theorem EndsElement.stands_eq_false {after : List Token} (h : EndsElement after) {text : String}
    (htext : text ∉ [",", ")"]) : stands [text] after = false := by
  obtain ⟨found, hfound, back, rfl⟩ := h
  have hne : found ≠ text := fun heq ↦ htext (heq ▸ hfound)
  simp [stands, hne]

/-- An element is restored by its text. -/
structure Element.Restored (read : Element) (tokens : List Token) : Prop where
  spells : ∀ tail, EndsWord tail → Spells tail read.text.toList tokens
  reads : ∀ depth, tokens.length ≤ depth → ∀ scope after, EndsElement after →
    Reads (element (readWithin depth)) scope (tokens ++ after) read after
  begins : Avoids [")"] tokens
  ne_nil : tokens ≠ []

/-- The dots of an element that stands for many. -/
def ellipsis (isVariadic : Bool) : List Token :=
  if isVariadic then [inLine .operator "..."] else []

theorem spells_ellipsis (isVariadic : Bool) (tail : List Char) :
    Spells tail (if isVariadic then "..." else "").toList (ellipsis isVariadic) := by
  cases isVariadic with
  | false => exact .nil
  | true => exact .lastSymbol (by decide)

theorem endsWord_ellipsis (isVariadic : Bool) {tail : List Char} (htail : EndsWord tail) :
    EndsWord ((if isVariadic then "..." else "").toList ++ tail) := by
  cases isVariadic with
  | false => exact htail
  | true =>
    exact .of_cons (by decide +kernel)

theorem EndsElement.ellipsis {after : List Token} (h : EndsElement after) (isVariadic : Bool) :
    EndsType (SwiftType.ellipsis isVariadic ++ after) ∧
      stands [":"] (SwiftType.ellipsis isVariadic ++ after) = false := by
  cases isVariadic with
  | false => exact ⟨h.endsType, h.stands_eq_false (by decide)⟩
  | true => exact ⟨.cons (by decide) rfl, rfl⟩

theorem EndsElement.reads_ellipsis {after : List Token} (h : EndsElement after)
    (isVariadic : Bool) (scope : Scope) :
    Reads (accept "...") scope (SwiftType.ellipsis isVariadic ++ after) isVariadic after := by
  cases isVariadic with
  | false => exact reads_accept_iff.mpr (.inr ⟨rfl, h.stands_eq_false (by decide), rfl⟩)
  | true => exact reads_accept_iff.mpr (.inl ⟨rfl, _, rfl, rfl⟩)

theorem Restored.element {type : SwiftType} {label : String} {names item : List Token}
    (htype : type.Restored item) (hlabel : Labels label names) (isVariadic : Bool) :
    Element.Restored ⟨label, type, isVariadic⟩ (names ++ (item ++ ellipsis isVariadic)) where
  spells tail htail := by
    have hdots := spells_ellipsis isVariadic tail
    have hitem := htype.spells _ (endsWord_ellipsis isVariadic htail)
    rw [Element.text, String.toList_append, String.toList_append, List.append_assoc]
    exact (hlabel.spells _).append (hitem.append hdots)
  reads depth hdepth scope after hafter := by
    obtain ⟨hends, hcolon⟩ := hafter.ellipsis isVariadic
    have hlength : item.length ≤ depth := by
      simp only [List.length_append] at hdepth
      omega
    have hnames := hlabel.reads (htype.unlabelled _ hends hcolon) scope
    have hitem := htype.reads_within hlength scope hends
    have hdots := hafter.reads_ellipsis isVariadic scope
    rw [List.append_assoc, List.append_assoc]
    exact hnames.bind_iff.mpr (hitem.bind_iff.mpr (hdots.bind_iff.mpr .pure))
  begins := by
    obtain ⟨first, rest, rfl⟩ := List.exists_cons_of_ne_nil htype.ne_nil
    refine hlabel.begins (.of_cons ?_)
    exact htype.begins.mono (by decide) first rfl
  ne_nil := by
    simp [htype.ne_nil]

theorem keeps_element {whole : List Token} {type : Reader SwiftType}
    (hspelled : ∀ token ∈ whole, Spelled token.kind token.text.toList)
    (htype : ∀ scope tokens, Keeps whole (fun type ↦ ∃ item, type.Restored item) type scope tokens)
    (scope : Scope) (tokens : List Token) :
    Keeps whole (fun read ↦ ∃ item, read.Restored item) (element type) scope tokens := by
  refine .bind (keeps_elementLabel hspelled scope tokens) fun label mid ↦ .bind (htype scope mid)
    fun type mid ↦ .bind .accept fun isVariadic mid ↦ .pure ?_
  rintro - ⟨item, hitem⟩ ⟨names, hnames⟩
  exact ⟨_, hitem.element hnames isVariadic⟩

/-! ## Tuples -/

theorem tuple_eq (type : Reader SwiftType) : tuple type = (do
    let opener ← expect "(" "to open tuple type"
    let elements ← repeated (elementTurn type opener)
    let _ ← expect ")" "to close tuple type"
    return { text := "(" ++ String.intercalate ", " (elements.map (·.text)) ++ ")"
             elements? := some elements }) :=
  rfl

theorem Element.Restored.elementTurn_iff {read : Element} {item : List Token}
    (h : read.Restored item) {depth : Nat} (hdepth : item.length ≤ depth) {scope : Scope}
    {opener : Token} {after rest : List Token} (hafter : EndsElement after)
    {result : Turn Element} :
    Reads (elementTurn (readWithin depth) opener) scope (item ++ after) result rest ↔
      Reads (do if ← accept "," then return .more read else return .last read) scope after result
        rest := by
  obtain ⟨first, others, rfl⟩ := List.exists_cons_of_ne_nil h.ne_nil
  have hcloser : ¬ stands [")"] (first :: others ++ after) = true := by
    have hbegins : Avoids [")"] (first :: others ++ after) := .of_cons (h.begins first rfl)
    rw [hbegins.stands_eq_false (by decide)]
    exact Bool.false_ne_true
  rw [elementTurn, reads_ahead_bind_iff, if_neg hcloser, if_neg (by simp)]
  exact (h.reads depth hdepth scope after hafter).bind_iff

private theorem reads_elementTurns {first : Element} {others : List Element} {item : List Token}
    {items : List (List Token)} (hfirst : first.Restored item)
    (hothers : List.Forall₂ Element.Restored others items) {depth : Nat}
    (hdepth : (item ++ afterMarks comma items).length ≤ depth) (scope : Scope) (opener : Token)
    (after : List Token) (number : Nat) :
    Reads (repeatFrom (fun _ ↦ elementTurn (readWithin depth) opener) number) scope
      (item ++ afterMarks comma items ++ inLine .punctuation ")" :: after) (first :: others)
      (inLine .punctuation ")" :: after) := by
  rw [List.length_append] at hdepth
  induction hothers generalizing first item number with
  | nil =>
    have hends : EndsElement (inLine .punctuation ")" :: after) := ⟨")", by decide, after, rfl⟩
    rw [List.append_assoc]
    refine .repeatFrom_last ((hfirst.elementTurn_iff (by omega) hends).mpr ?_)
    exact (reads_accept_bind_iff_of_not_stands rfl).mpr .pure
  | @cons second item' others items hsecond _ ih =>
    rw [afterMarks, List.flatMap_cons, ← afterMarks, List.cons_append] at hdepth ⊢
    simp only [List.length_append, List.length_cons] at hdepth
    have hothers := ih hsecond (by omega) (number + 1)
    rw [List.append_assoc, List.cons_append, List.append_assoc]
    rw [List.append_assoc] at hothers
    have hends : EndsElement (comma ::
        (item' ++ (afterMarks comma items ++ inLine .punctuation ")" :: after))) :=
      ⟨",", by decide, _, rfl⟩
    refine .repeatFrom_more ((hfirst.elementTurn_iff (by omega) hends).mpr ?_) ?_ hothers
    · exact (reads_accept_bind_iff_of_is rfl).mpr .pure
    · simp only [List.length_append, List.length_cons]
      omega

/-! ## Simple types -/

/-- The tokens are a type that begins with a bracket or with a name. -/
inductive Begins : List Token → Prop
  | bracket {text : String} {rest : List Token} : text ∈ ["(", "["] →
      Begins (inLine .punctuation text :: rest)
  | name {name : String} {rest : List Token} : Spelled .identifier name.toList → Continues rest →
      Begins (inLine .identifier name :: rest)

theorem Begins.ne_nil {tokens : List Token} (h : Begins tokens) : tokens ≠ [] := by
  cases h <;> exact List.cons_ne_nil _ _

theorem Begins.append {front back : List Token} (h : Begins front) (hback : Continues back) :
    Begins (front ++ back) := by
  cases h with
  | bracket htext => exact .bracket htext
  | name hname hrest => exact .name hname (hrest.append hback)

/-- A type without suffixes is restored by its text. -/
structure Primary.Restored (read : Primary) (tokens : List Token) : Prop extends
    Restores primary (Avoids ["<"]) read.text read tokens where
  begins : Begins tokens

theorem Primary.Restored.ofTuple {first : Element} {others : List Element} {item : List Token}
    {items : List (List Token)} (hfirst : first.Restored item)
    (hothers : List.Forall₂ Element.Restored others items) :
    Primary.Restored
      { text := "(" ++ String.intercalate ", " ((first :: others).map (·.text)) ++ ")"
        elements? := some (first :: others) }
      (inLine .punctuation "(" :: (item ++ afterMarks comma items) ++
        [inLine .punctuation ")"]) where
  spells tail htail := by
    have hends : EndsWord (")".toList ++ tail) := .of_cons (by decide +kernel)
    have hclosed : Spells tail ")".toList [inLine .punctuation ")"] := .lastSymbol (by decide)
    have hitems := Spells.listed separates_comma hfirst.spells
      (List.forall₂_map_left_iff.mpr (hothers.imp fun _ _ h ↦ h.spells)) hends
    have hopener : (Kind.punctuation, "(") ∈ closedSymbols := by decide
    rw [String.toList_append, String.toList_append, List.append_assoc]
    exact .symbol hopener (hitems.append hclosed)
  reads depth hdepth scope after hafter := by
    have hlength : (item ++ afterMarks comma items).length ≤ depth := by simp at hdepth ⊢; omega
    have hitems := reads_elementTurns hfirst hothers hlength scope (inLine .punctuation "(") after 0
    rw [primary, reads_ahead_bind_iff, List.append_assoc]
    refine reads_ite_iff.mpr (.inl ⟨rfl, ?_⟩)
    refine (reads_expect_bind_iff_of_is rfl).mpr (Reads.bind_iff hitems |>.mpr ?_)
    exact (reads_expect_bind_iff_of_is rfl).mpr .pure
  begins := .bracket (by decide)

theorem Primary.Restored.ofUnit :
    Primary.Restored { text := "()", elements? := some [] }
      [inLine .punctuation "(", inLine .punctuation ")"] where
  spells tail htail := by
    have hcloser : Spells tail ")".toList [inLine .punctuation ")"] := .lastSymbol (by decide)
    have hopener : (Kind.punctuation, "(") ∈ closedSymbols := by decide
    exact .symbol hopener hcloser
  reads depth hdepth scope after hafter := by
    rw [primary, reads_ahead_bind_iff]
    refine reads_ite_iff.mpr (.inl ⟨rfl, (reads_expect_bind_iff_of_is rfl).mpr ?_⟩)
    have hstop : Reads (elementTurn (readWithin depth) (inLine .punctuation "(")) scope
        (inLine .punctuation ")" :: after) .stop (inLine .punctuation ")" :: after) :=
      reads_ahead_bind_iff.mpr (reads_ite_iff.mpr (.inl ⟨rfl, .pure⟩))
    have helements : Reads (repeated (elementTurn (readWithin depth) (inLine .punctuation "(")))
        scope (inLine .punctuation ")" :: after) [] (inLine .punctuation ")" :: after) :=
      hstop.repeatFrom_stop
    refine helements.bind_iff.mpr ?_
    exact (reads_expect_bind_iff_of_is rfl).mpr .pure
  begins := .bracket (by decide)

theorem Primary.Restored.ofArray {type : SwiftType} {item : List Token}
    (htype : type.Restored item) :
    Primary.Restored { text := "[" ++ type.declared ++ "]" }
      (inLine .punctuation "[" :: item ++ [inLine .punctuation "]"]) where
  spells tail htail := by
    have hends : EndsWord ("]".toList ++ tail) := .of_cons (by decide +kernel)
    have hcloser : Spells tail "]".toList [inLine .punctuation "]"] := .lastSymbol (by decide)
    have hopener : (Kind.punctuation, "[") ∈ closedSymbols := by decide
    rw [String.toList_append, String.toList_append, List.append_assoc]
    exact .symbol hopener ((htype.spells _ hends).append hcloser)
  reads depth hdepth scope after hafter := by
    have hlength : item.length ≤ depth := by simp at hdepth; omega
    have hends : EndsType (inLine .punctuation "]" :: after) := .cons (by decide) rfl
    have hitem := htype.reads_within hlength scope hends
    rw [primary, reads_ahead_bind_iff, List.append_assoc]
    refine reads_ite_iff.mpr (.inr ⟨by decide, reads_ite_iff.mpr (.inl ⟨rfl, ?_⟩)⟩)
    refine reads_skip_bind_iff.mpr (hitem.bind_iff.mpr ?_)
    refine (reads_accept_bind_iff_of_not_stands rfl).mpr ?_
    exact (reads_expect_bind_iff_of_is rfl).mpr .pure
  begins := .bracket (by decide)

theorem Primary.Restored.ofDictionary {key value : SwiftType} {item item' : List Token}
    (hkey : key.Restored item) (hvalue : value.Restored item') :
    Primary.Restored { text := "[" ++ key.declared ++ ": " ++ value.declared ++ "]" }
      (inLine .punctuation "[" :: item ++ (inLine .punctuation ":" :: item' ++
        [inLine .punctuation "]"])) where
  spells tail htail := by
    have hends {back : List Char} : EndsWord (']' :: back) ∧ EndsWord (':' :: back) := by
      constructor <;> exact .of_cons (by decide +kernel)
    have hcloser : Spells tail "]".toList [inLine .punctuation "]"] := .lastSymbol (by decide)
    have hopener : (Kind.punctuation, "[") ∈ closedSymbols := by decide
    have hcolon : (Kind.punctuation, ":") ∈ closedSymbols := by decide
    simp only [String.toList_append, List.append_assoc]
    have hback := Spells.symbol hcolon (.blank ((hvalue.spells _ hends.1).append hcloser))
    exact .symbol hopener ((hkey.spells _ hends.2).append hback)
  reads depth hdepth scope after hafter := by
    have hlength : item.length ≤ depth ∧ item'.length ≤ depth := by simp at hdepth; omega
    have hends : EndsType (inLine .punctuation "]" :: after) := .cons (by decide) rfl
    have hcolon :
        EndsType (inLine .punctuation ":" :: (item' ++ inLine .punctuation "]" :: after)) :=
      .cons (by decide) rfl
    have hitem' := hvalue.reads_within hlength.2 scope hends
    have hitem := hkey.reads_within hlength.1 scope hcolon
    rw [primary, reads_ahead_bind_iff, List.append_assoc, List.append_assoc]
    refine reads_ite_iff.mpr (.inr ⟨by decide, reads_ite_iff.mpr (.inl ⟨rfl, ?_⟩)⟩)
    refine reads_skip_bind_iff.mpr (hitem.bind_iff.mpr ?_)
    refine (reads_accept_bind_iff_of_is rfl).mpr (hitem'.bind_iff.mpr ?_)
    exact (reads_expect_bind_iff_of_is rfl).mpr .pure
  begins := .bracket (by decide)

theorem Primary.Restored.ofName {name arguments : String} {item : List Token}
    (hname : Spelled .identifier name.toList)
    (harguments : Restores genericArguments (Avoids ["<"]) arguments arguments item)
    (hitem : Continues item) :
    Primary.Restored { text := name ++ arguments } (inLine .identifier name :: item) where
  spells tail htail := by
    have hspells := harguments.spells tail htail
    rw [String.toList_append]
    exact .word hname (by decide) (hspells.endsWord htail hitem.head_endsWord) hspells
  reads depth hdepth scope after hafter := by
    have hread := harguments.reads depth (by simp at hdepth; omega) scope after hafter
    have hround : (Kind.punctuation, "(") ∈ closedSymbols := by decide
    have hsquare : (Kind.punctuation, "[") ∈ closedSymbols := by decide
    have hbracket := hname.ne_closedSymbol hround (by decide)
    have hbracket' := hname.ne_closedSymbol hsquare (by decide)
    rw [primary, reads_ahead_bind_iff]
    refine reads_ite_iff.mpr (.inr ⟨by simp [hbracket], ?_⟩)
    refine reads_ite_iff.mpr (.inr ⟨by simp [hbracket'], ?_⟩)
    refine reads_ite_iff.mpr (.inl ⟨rfl, reads_skip_bind_iff.mpr (hread.bind_iff.mpr ?_)⟩)
    exact .pure
  begins := .name hname hitem

section Rules

variable {whole : List Token} {type : Reader SwiftType}
  (hspelled : ∀ token ∈ whole, Spelled token.kind token.text.toList)
  (htype : ∀ scope tokens, Keeps whole (fun type ↦ ∃ item, type.Restored item) type scope tokens)
include hspelled htype

theorem keeps_tuple (scope : Scope) (tokens : List Token) :
    Keeps whole (fun read ↦ whole ≠ [] ∧ ∃ item, read.Restored item ∧ stands ["("] item = true)
      (tuple type) scope tokens := by
  have hturn (opener : Token) (scope : Scope) (tokens : List Token) :
      Keeps whole (Turn.All fun read : Element ↦ ∃ item, read.Restored item)
        (elementTurn type opener) scope tokens := by
    have helement : Keeps whole (Turn.All fun read : Element ↦ ∃ item, read.Restored item)
        (do let element ← element type
            if ← accept "," then return Turn.more element else return Turn.last element)
        scope tokens := by
      refine .bind (keeps_element hspelled htype scope tokens) fun read mid ↦ .bind .accept
        fun seen mid ↦ .ite (fun _ ↦ .pure fun _ h ↦ h) fun _ ↦ .pure fun _ h ↦ h
    refine .ahead_bind (.ite (fun _ ↦ .pure trivial) fun _ ↦ .ite (fun _ ↦ .fail_bind)
      fun _ ↦ helement)
  rw [tuple_eq]
  refine .bind .expect fun opener mid ↦ .bind (.repeated (hturn opener)) fun elements mid ↦
    .bind .expect fun closer mid ↦ .pure ?_
  rintro - helements ⟨-, hopener⟩
  refine ⟨List.ne_nil_of_mem hopener, ?_⟩
  rcases elements with _ | ⟨first, others⟩
  · exact ⟨_, .ofUnit, rfl⟩
  · obtain ⟨items, hitems⟩ := exists_forall₂_of_forall_exists helements
    cases hitems with
    | cons hfirst hothers => exact ⟨_, .ofTuple hfirst hothers, rfl⟩

omit hspelled in
theorem keeps_collection (scope : Scope) (token : Token) (tokens : List Token) :
    Keeps whole (fun read ↦ whole ≠ [] ∧ ∃ item, read.Restored item ∧ stands ["("] item = false)
      (collection type) scope (token :: tokens) := by
  refine .skip_bind (.bind (htype scope tokens) fun first mid ↦ .bind .accept fun seen mid ↦ ?_)
  refine .ite (fun _ ↦ .bind (htype scope mid) fun value mid ↦
    .bind .expect fun closer mid ↦ .pure ?_) fun _ ↦ .bind .expect fun closer mid ↦ .pure ?_
  · rintro - ⟨item', hvalue⟩ - ⟨item, hkey⟩ hopener
    exact ⟨List.ne_nil_of_mem hopener, _, .ofDictionary hkey hvalue, rfl⟩
  · rintro - - ⟨item, hitem⟩ hopener
    exact ⟨List.ne_nil_of_mem hopener, _, .ofArray hitem, rfl⟩

/-- What is read is restored by its text, and made of at least one token. -/
theorem keeps_primary (scope : Scope) (tokens : List Token) :
    Keeps whole (fun read ↦ whole ≠ [] ∧ ∃ item, read.Restored item ∧
      stands ["("] item = stands ["("] tokens) (primary type) scope tokens := by
  refine .ahead_bind ?_
  rcases tokens with _ | ⟨token, tokens⟩
  · exact .ahead_bind .fail
  refine .ite (fun hround ↦ ?_) fun hround ↦ .ite (fun _ ↦ ?_) fun _ ↦ .ite (fun hname ↦ ?_)
    fun _ ↦ .ahead_bind .fail
  · refine (keeps_tuple hspelled htype scope _).mono fun read ⟨hne, item, hitem, hopens⟩ ↦ ?_
    exact ⟨hne, item, hitem, by simp [hopens, hround]⟩
  · refine (keeps_collection htype scope token tokens).mono fun read ⟨hne, item, hitem, hopens⟩ ↦ ?_
    rw [Bool.not_eq_true] at hround
    exact ⟨hne, item, hitem, by simp [hopens, hround]⟩
  · refine .skip_bind (.bind (keeps_genericArguments htype scope tokens)
      fun arguments mid ↦ .pure ?_)
    rintro ⟨item, harguments, hcontinues⟩ htoken
    have hname' : Spelled .identifier token.text.toList := hname ▸ hspelled token htoken
    refine ⟨List.ne_nil_of_mem htoken, _, .ofName hname' harguments hcontinues, ?_⟩
    rw [stands_singleton_cons, stands_singleton_cons, Token.is, Token.is, hname]
    rfl

end Rules

end SwiftType

end TestDouble
