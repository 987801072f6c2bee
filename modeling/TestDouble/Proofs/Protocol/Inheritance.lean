import TestDouble.Proofs.Protocol.Spelling
import TestDouble.Proofs.Reader.Lawful
import TestDouble.Proofs.Reader.Seam
import TestDouble.Proofs.SwiftType.Depth
import TestDouble.Proofs.SwiftType.Derived
import TestDouble.Proofs.SwiftType.Solid

/-!
# Inheritance clauses

An entry of an inheritance clause is read as one type, and its text is split at the separator of
compositions afterwards. Here an entry is also read type by type, as it is written, and the two are
compared: what is inherited is the text of each type in its place, unless one of these texts holds
the separator itself, among generic arguments or in parentheses. Then that type falls into pieces.

Both readings go through the same tokens. The types of an entry have no specifiers in front of them
and no arrow behind them, because another type, another entry or the end of the clause follows, and
no blanks at the ends of their texts, so that trimming the pieces takes nothing off them.
-/

namespace TestDouble

open Reader Token
open SwiftType (Avoids Component component partTurn modifies startsType suffixBeginnings)

/-! ## Items between commas -/

namespace Reader

theorem stands_mono {texts others : List String} {tokens : List Token} (hsub : texts ⊆ others)
    (h : stands texts tokens = true) : stands others tokens = true := by
  obtain ⟨token, htoken, hany⟩ := (Option.any_eq_true _ _).mp h
  obtain ⟨text, htext, his⟩ := List.any_eq_true.mp hany
  exact (Option.any_eq_true _ _).mpr ⟨token, htoken, List.any_eq_true.mpr ⟨text, hsub htext, his⟩⟩

variable {α β : Type} {item : Reader α} {item' : Reader β} {f : α → β} {scope : Scope}
  {tokens rest : List Token} {items : List α}

theorem reads_commaTurn_iff {turn : Turn α} : Reads (commaTurn item) scope tokens turn rest ↔
    (∃ comma back a, tokens = comma :: back ∧ comma.is "," = true ∧
      Reads item scope back a rest ∧ turn = .more a) ∨
    stands [","] tokens = false ∧ turn = .stop ∧ tokens = rest := by
  rw [commaTurn, reads_bind_iff]
  constructor
  · rintro ⟨accepted, mid, haccept, hturn⟩
    rcases reads_accept_iff.mp haccept with ⟨rfl, comma, rfl, his⟩ | ⟨rfl, hstands, rfl⟩
    · rw [if_pos rfl] at hturn
      obtain ⟨a, mid', hitem, hpure⟩ := reads_bind_iff.mp hturn
      obtain ⟨rfl, rfl⟩ := reads_pure_iff.mp hpure
      exact .inl ⟨comma, mid, a, rfl, his, hitem, rfl⟩
    · obtain ⟨rfl, rfl⟩ := reads_pure_iff.mp hturn
      exact .inr ⟨hstands, rfl, rfl⟩
  · rintro (⟨comma, back, a, rfl, his, hitem, rfl⟩ | ⟨hstands, rfl, rfl⟩)
    · refine ⟨true, back, reads_accept_iff.mpr (.inl ⟨rfl, comma, rfl, his⟩), ?_⟩
      exact hitem.bind_iff.mpr .pure
    · exact ⟨false, tokens, reads_accept_iff.mpr (.inr ⟨rfl, hstands, rfl⟩), .pure⟩

section Items

variable (hsuffix : LeavesSuffix item)
  (hitem : ∀ ⦃a : α⦄ ⦃front mid : List Token⦄, a ∈ items → front <:+ tokens →
    stands [","] mid = true ∨ mid = rest →
    Reads item scope front a mid → Reads item' scope front (f a) mid)

include hitem in
/-- A turn that reads an item in front of a comma or of what follows the last one. -/
theorem reads_commaTurn_map {a : α} {mid mid' : List Token} (ha : a ∈ items) (hsub : mid <:+ tokens)
    (hmid' : stands [","] mid' = true ∨ mid' = rest)
    (h : Reads (commaTurn item) scope mid (.more a) mid') :
    stands [","] mid = true ∧ Reads (commaTurn item') scope mid (.more (f a)) mid' := by
  rcases reads_commaTurn_iff.mp h with ⟨comma, back, _, rfl, his, hread, ⟨⟩⟩ | ⟨-, ⟨⟩, -⟩
  have hback := (List.suffix_cons comma back).trans hsub
  exact ⟨his ▸ stands_singleton_cons, reads_commaTurn_iff.mpr
    (.inl ⟨comma, back, f a, rfl, his, hitem ha hback hmid' hread, rfl⟩)⟩

include hsuffix hitem in
/-- What stands behind an item is a comma or the end, which the turns for the others tell. -/
theorem reads_commaTurns_map {others : List α} (hmem : ∀ a ∈ others, a ∈ items) {number : Nat}
    {mid : List Token} (hsub : mid <:+ tokens)
    (h : Reads (repeatFrom (fun _ ↦ commaTurn item) number) scope mid others rest) :
    (stands [","] mid = true ∨ mid = rest) ∧
      Reads (repeatFrom (fun _ ↦ commaTurn item') number) scope mid (others.map f) rest := by
  induction others generalizing number mid with
  | nil =>
    rcases reads_repeatFrom_iff.mp h with ⟨hturn, -⟩ | ⟨_, -, ⟨⟩⟩ | ⟨_, _, _, -, -, -, ⟨⟩⟩ |
      ⟨_, -, -, ⟨⟩⟩
    rcases reads_commaTurn_iff.mp hturn with ⟨_, _, _, -, -, -, ⟨⟩⟩ | ⟨hstands, -, rfl⟩
    have hstop : Reads (commaTurn item') scope mid .stop mid :=
      reads_commaTurn_iff.mpr (.inr ⟨hstands, rfl, rfl⟩)
    exact ⟨.inr rfl, hstop.repeatFrom_stop⟩
  | cons a others ih =>
    obtain ⟨ha, hmem⟩ := List.forall_mem_cons.mp hmem
    rcases reads_repeatFrom_iff.mp h with ⟨-, ⟨⟩⟩ | ⟨_, hturn, ⟨⟩⟩ |
      ⟨_, mid', _, hturn, hlt, hrest, ⟨⟩⟩ | ⟨_, hturn, hstuck, ⟨⟩⟩
    · rcases reads_commaTurn_iff.mp hturn with ⟨_, _, _, -, -, -, ⟨⟩⟩ | ⟨-, ⟨⟩, -⟩
    · have hleaves : mid' <:+ mid := by
        rcases reads_commaTurn_iff.mp hturn with ⟨comma, back, _, rfl, -, hread, -⟩ | ⟨-, ⟨⟩, -⟩
        exact (hsuffix hread).trans (List.suffix_cons comma back)
      -- The others come first, since they say what stands behind this one.
      obtain ⟨hmid', hrest'⟩ := ih hmem (hleaves.trans hsub) hrest
      obtain ⟨hstands, hmore⟩ := reads_commaTurn_map hitem ha hsub hmid' hturn
      exact ⟨.inl hstands, hmore.repeatFrom_more hlt hrest'⟩
    · obtain ⟨hstands, hmore⟩ := reads_commaTurn_map hitem ha hsub (.inr rfl) hturn
      exact ⟨.inl hstands, hmore.repeatFrom_stuck hstuck⟩

include hsuffix hitem in
/-- Items that another reader reads in front of a comma and of what follows the last one are read by
it one after the other. -/
theorem Reads.separated_map (h : Reads (separated item) scope tokens items rest) :
    Reads (separated item') scope tokens (items.map f) rest := by
  rw [separated_eq] at h ⊢
  obtain ⟨first, mid, hfirst, h⟩ := reads_bind_iff.mp h
  obtain ⟨others, mid', hread, hpure⟩ := reads_bind_iff.mp h
  obtain ⟨rfl, rfl⟩ := reads_pure_iff.mp hpure
  obtain ⟨hmid, hread'⟩ := reads_commaTurns_map hsuffix hitem
    (fun a ↦ List.mem_cons_of_mem first) (hsuffix hfirst) hread
  have hfirst' := hitem List.mem_cons_self List.suffix_rfl hmid hfirst
  exact hfirst'.bind_iff.mpr (reads_bind_iff.mpr
    ⟨_, _, hread', .pure⟩)

end Items

end Reader

/-! ## Entries as they are written -/

/-- An entry of an inheritance clause: the word `class`, or a composition of types. -/
inductive Protocol.Entry where
  | anyObject
  | composition (first : Component) (others : List Component)

namespace Protocol.Entry

/-- The types that the entry is composed of. -/
def parts : Entry → List Component
  | anyObject => []
  | composition first others => first :: others

/-- The names that the entry stands for. -/
def names : Entry → List String
  | anyObject => ["AnyObject"]
  | composition first others => (first :: others).map (·.fullText)

/-- No type of the entry ends in a marker for optionals. -/
def Plain (entry : Entry) : Prop :=
  ∀ part ∈ entry.parts, part.suffixes.getLast?.bind SwiftType.Suffix.optionality? = none

instance (entry : Entry) : Decidable entry.Plain :=
  inferInstanceAs (Decidable (∀ part ∈ entry.parts, _ = none))

/-- Reads an entry type by type. -/
def read : Reader Entry := do
  if ← accept "class" then return .anyObject
  else
    let first ← component SwiftType.read
    return .composition first (← repeated (partTurn SwiftType.read))

end Protocol.Entry

namespace Protocol

/-- Reads what stands in front of an inheritance clause. -/
def readHeading : Reader Unit := do
  let _ ← Lead.read
  let _ ← expect "protocol" "to start protocol declaration"
  let _ ← expectName "for protocol"
  let _ ← adjoinedGroup .angle

/-- Reads an inheritance clause, and what stands in front of it. -/
def readWritten : Reader (List Entry) := do
  readHeading
  let _ ← expect ":" "to begin inheritance clause"
  separated Entry.read

/-- The names in a text that composes them. -/
def namesIn (text : String) : List String :=
  (Text.splitWhere (· = '&') text.toList).map fun part ↦ String.ofList (Text.trimBlank part)

/-- The names that are taken from the entry. -/
def Entry.taken : Entry → List String
  | anyObject => ["AnyObject"]
  | composition first others =>
    namesIn (String.intercalate " & " ((first :: others).map (·.fullText)))

end Protocol

namespace Protocol.Entry

variable {scope : Scope} {tokens rest mid : List Token} {entry : Entry} {part : Component}
  {type : Reader SwiftType}

/-- What follows an entry. -/
def ends : List String :=
  [",", "where", "\x7b"]

/-- What follows a type of an entry. -/
def partEnds : List String :=
  "&" :: ends

/-! ## Types in front of the end of an entry -/

private theorem avoids_of_startsType {token : Token}
    (hspelled : Spelled token.kind token.text.toList)
    (h : startsType token = true) : Avoids (suffixBeginnings ++ partEnds) (token :: rest) := by
  have hsymbols : ∀ text ∈ suffixBeginnings ++ partEnds, ¬ Spelled .identifier text.toList ∧
      text ≠ "(" ∧ text ≠ "[" := by
    decide +kernel
  refine .of_cons fun hmem ↦ ?_
  obtain ⟨hword, hround, hsquare⟩ := hsymbols _ hmem
  simp only [startsType, Bool.or_eq_true, decide_eq_true_eq] at h
  rcases h with (hkind | his) | his
  · exact hword (hkind ▸ hspelled)
  · exact hround (text_eq_of_is his)
  · exact hsquare (text_eq_of_is his)

/-- Neither a type nor a suffix begins where a type of an entry ends. -/
theorem not_startsType_of_stands {token : Token} {back : List Token}
    (hspelled : Spelled token.kind token.text.toList)
    (h : stands partEnds (token :: back) = true) : startsType token = false := by
  rw [← Bool.not_eq_true]
  intro hstarts
  obtain ⟨text, htext, his⟩ := List.any_eq_true.mp h
  have havoids : Avoids (suffixBeginnings ++ partEnds) (token :: back) :=
    avoids_of_startsType hspelled hstarts
  exact havoids token rfl (text_eq_of_is his ▸ List.mem_append_right _ htext)

/-- A type begins with a bracket or a word. If it is the word alone that is read of it, the type is
read no further where another one begins. -/
theorem exists_startsType_of_reads (h : Reads (component type) scope tokens part mid)
    (hspelled : ∀ token ∈ tokens, Spelled token.kind token.text.toList) :
    ∃ token back, tokens = token :: back ∧ startsType token = true ∧
      (token.kind = .identifier → ∀ next ∈ back.head?, startsType next = true → mid = back) := by
  obtain ⟨primary, mid', hprimary, h⟩ := reads_bind_iff.mp h
  obtain ⟨suffixes, mid'', hsuffixes, hpure⟩ := reads_bind_iff.mp h
  obtain ⟨-, rfl⟩ := reads_pure_iff.mp hpure
  have hprimary := reads_ahead_bind_iff.mp hprimary
  have hmissing {read : SwiftType.Primary} {rest : List Token} :
      ¬ Reads SwiftType.missing scope tokens read rest :=
    fun hread ↦ not_reads_fail (reads_ahead_bind_iff.mp hread)
  rcases tokens with _ | ⟨token, back⟩
  · exact absurd hprimary hmissing
  rw [List.head?_cons] at hprimary
  dsimp only at hprimary
  refine ⟨token, back, rfl, ?_⟩
  have hword {text : String} (his : token.is text = true) (htext : text ∈ ["(", "["]) :
      token.kind ≠ .identifier := by
    have hbrackets : ∀ text ∈ ["(", "["], ¬ Spelled .identifier text.toList := by decide +kernel
    intro hkind
    refine hbrackets text htext ?_
    rw [← text_eq_of_is his, ← hkind]
    exact hspelled token List.mem_cons_self
  rcases reads_ite_iff.mp hprimary with ⟨hround, -⟩ | ⟨-, hprimary⟩
  · exact ⟨by simp [startsType, hround], fun hkind ↦ absurd hkind (hword hround (by decide))⟩
  rcases reads_ite_iff.mp hprimary with ⟨hsquare, -⟩ | ⟨-, hprimary⟩
  · exact ⟨by simp [startsType, hsquare], fun hkind ↦ absurd hkind (hword hsquare (by decide))⟩
  rcases reads_ite_iff.mp hprimary with ⟨hkind, hprimary⟩ | ⟨-, hprimary⟩
  · refine ⟨by simp [startsType, hkind], fun _ next hnext hstarts ↦ ?_⟩
    -- Neither generic arguments nor suffixes begin like a type.
    obtain ⟨others, rfl⟩ := List.head?_eq_some_iff.mp hnext
    have havoids : Avoids suffixBeginnings (next :: others) :=
      (avoids_of_startsType (hspelled next (by simp)) hstarts).mono fun _ ↦ List.mem_append_left _
    obtain ⟨arguments, mid, harguments, hpure⟩ :=
      reads_bind_iff.mp (reads_skip_bind_iff.mp hprimary)
    obtain ⟨-, rfl⟩ := reads_pure_iff.mp hpure
    have hnone := reads_ahead_bind_iff.mp harguments
    rw [List.tail_cons, havoids.adjoins_eq_false (by decide), if_neg Bool.false_ne_true] at hnone
    obtain ⟨-, rfl⟩ := reads_pure_iff.mp hnone
    have hstop : Reads (repeated (SwiftType.suffix type)) scope (next :: others) []
        (next :: others) := (SwiftType.reads_suffix_stop havoids).repeatFrom_stop
    exact (hsuffixes.value_unique hstop).2
  · exact absurd hprimary hmissing

section

variable (h : Reads (component type) scope tokens part mid)
  (hspelled : ∀ token ∈ tokens, Spelled token.kind token.text.toList)
include h hspelled

/-- No word in front of a type belongs to the type if the type ends like one of an entry. -/
theorem modifies_eq_false (hmid : stands partEnds mid = true) {words : List String}
    (hwords : ∀ word ∈ words, Spelled .identifier word.toList) : modifies words tokens = false := by
  rw [← Bool.not_eq_true]
  intro hmodifies
  obtain ⟨word, rest, rfl, hword, next, hnext, hstarts⟩ :=
    SwiftType.modifies_eq_true_iff.mp hmodifies
  obtain ⟨token, back, htokens, -, halone⟩ := exists_startsType_of_reads h hspelled
  obtain ⟨rfl, rfl⟩ := List.cons.inj htokens
  have hkind : word.kind = .identifier :=
    (hspelled word List.mem_cons_self).kind_eq (hwords _ hword)
  obtain rfl := halone hkind next hnext hstarts
  obtain ⟨others, rfl⟩ := List.head?_eq_some_iff.mp hnext
  rw [not_startsType_of_stands (hspelled next (by simp)) hmid] at hstarts
  cases hstarts

theorem stopsSpecifiers (hmid : stands partEnds mid = true) :
    SwiftType.StopsSpecifiers tokens := by
  have hownership := modifies_eq_false h hspelled hmid
    (show ∀ word ∈ SwiftType.ownershipSpecifiers, Spelled .identifier word.toList by decide +kernel)
  obtain ⟨token, back, rfl, hstarts, -⟩ := exists_startsType_of_reads h hspelled
  have hkind : token.kind ∉ [Kind.attribute, .keyword] := by
    intro hkind
    rw [SwiftType.startsType_eq_false (hspelled token List.mem_cons_self) hkind] at hstarts
    cases hstarts
  refine ⟨?_, ?_, hownership⟩
  · rintro _ ⟨⟩ hattribute
    exact hkind (by simp [hattribute])
  · rw [stands_singleton_cons, ← Bool.not_eq_true]
    intro his
    have hkeyword : Spelled .keyword "inout".toList := by decide +kernel
    have hword := hspelled token List.mem_cons_self
    rw [text_eq_of_is his] at hword
    exact hkind (by simp [hword.kind_eq hkeyword])

end

/-! ## Reading an entry -/

private theorem reads_partTurn {turn : Turn Component}
    (h : Reads (partTurn type) scope tokens turn rest) :
    stands ["&"] tokens = true ∧ (∃ part, turn = .more part) ∨
      stands ["&"] tokens = false ∧ turn = .stop ∧ tokens = rest := by
  obtain ⟨accepted, mid, haccept, hturn⟩ := reads_bind_iff.mp h
  rcases reads_accept_iff.mp haccept with ⟨rfl, token, rfl, his⟩ | ⟨rfl, hstands, rfl⟩
  · rw [if_pos rfl] at hturn
    obtain ⟨part, mid, -, hpure⟩ := reads_bind_iff.mp hturn
    obtain ⟨rfl, -⟩ := reads_pure_iff.mp hpure
    exact .inl ⟨by simpa, part, rfl⟩
  · obtain ⟨rfl, rfl⟩ := reads_pure_iff.mp hturn
    exact .inr ⟨hstands, rfl, rfl⟩

/-- A type of an entry is followed by another one, or it is the last. -/
theorem stands_or_eq_nil {others : List Component}
    (h : Reads (repeated (partTurn type)) scope tokens others rest) :
    stands ["&"] tokens = true ∨ stands ["&"] tokens = false ∧ others = [] ∧ tokens = rest := by
  rcases reads_repeatFrom_iff.mp h with ⟨hturn, rfl⟩ | ⟨part, hturn, -⟩ |
    ⟨part, mid, others, hturn, -⟩ | ⟨part, hturn, -⟩
  · exact (reads_partTurn hturn).imp And.left fun hstop ↦ ⟨hstop.1, rfl, hstop.2.2⟩
  all_goals exact (reads_partTurn hturn).imp And.left fun hstop ↦ by cases hstop.2.1

private theorem arrowAhead_eq_false (h : stands partEnds tokens = true) :
    SwiftType.arrowAhead tokens = false := by
  rcases tokens with _ | ⟨token, back⟩
  · rfl
  obtain ⟨text, htext, his⟩ := List.any_eq_true.mp h
  have hmarks : ∀ text ∈ partEnds, text ≠ "async" ∧ text ≠ "throws" ∧ text ≠ "->" := by decide
  have hne := hmarks text htext
  rw [← text_eq_of_is his] at hne
  simp [SwiftType.arrowAhead, SwiftType.arrowFrom, Token.is, hne]

/-- What is read type by type is read as one type that composes them. -/
theorem reads_bareAfter {first : Component} {others : List Component}
    (hfirst : Reads (component type) scope tokens first mid)
    (hothers : Reads (repeated (partTurn type)) scope mid others rest)
    (hplain : (composition first others).Plain) (hmid : stands partEnds mid = true) :
    ∃ bare, Reads (SwiftType.bareAfter type "") scope tokens bare rest ∧
      bare.base = String.intercalate " & " ((first :: others).map (·.fullText)) := by
  have hafter {bare : SwiftType.Bare} (hbare : Reads (do
      if ← sees "&" then
        let others ← repeated (partTurn type)
        let parts := (first :: others).map (·.fullText)
        return { base := "" ++ String.intercalate " & " parts, needsParens := true }
      else if "" ≠ "" then return { base := "" ++ first.fullText, needsParens := true }
      else return first.bare) scope mid bare rest) :
      Reads (SwiftType.bareAfter type "") scope tokens bare rest := by
    refine reads_sees_bind_iff.mpr (hfirst.bind_iff.mpr (reads_ahead_bind_iff.mpr ?_))
    rw [arrowAhead_eq_false hmid, Bool.and_false, if_neg Bool.false_ne_true]
    exact hbare
  rcases stands_or_eq_nil hothers with hmore | ⟨hmore, rfl, rfl⟩
  · refine ⟨⟨"" ++ String.intercalate " & " ((first :: others).map (·.fullText)), .required, true,
      none⟩, hafter (reads_sees_bind_iff.mpr ?_), String.empty_append⟩
    rw [if_pos hmore]
    exact hothers.bind_iff.mpr .pure
  · refine ⟨first.bare, hafter (reads_sees_bind_iff.mpr ?_), ?_⟩
    · rw [hmore, if_neg Bool.false_ne_true]
      simp
    · rw [SwiftType.Component.bare_of_unmarked (hplain first List.mem_cons_self)]
      exact String.intercalate_singleton.symm

/-- Where types of an entry begin, there are no specifiers, and no word stands in front. -/
theorem reads_read_of_reads_bareAfter {bare : SwiftType.Bare}
    (hstops : SwiftType.StopsSpecifiers tokens) (hlead : modifies ["some", "any"] tokens = false)
    (hbare : Reads (SwiftType.bareAfter SwiftType.read "") scope tokens bare rest) :
    ∃ type, Reads SwiftType.read scope tokens type rest ∧ type.base = bare.base := by
  refine ⟨SwiftType.ofPieces [] bare, ?_, rfl⟩
  have hspecifiers : Reads (repeated SwiftType.specifier) scope tokens [] tokens :=
    (hstops.reads scope).repeatFrom_stop
  have hnone : Reads SwiftType.lead scope tokens "" tokens := by
    refine reads_ahead_bind_iff.mpr ?_
    rw [hlead, if_neg Bool.false_ne_true]
    simp
  rw [SwiftType.read_eq_annotated]
  refine hspecifiers.bind_iff.mpr (reads_bind_iff.mpr ⟨bare, rest, ?_, ?_⟩)
  · rw [SwiftType.bare_eq]
    exact hnone.bind_iff.mpr hbare
  · exact reads_tell_bind_iff.mpr .pure

/-- An entry that ends where entries end is read as what is written. -/
theorem reads_readEntry (h : Reads read scope tokens entry rest) (hplain : entry.Plain)
    (hspelled : ∀ token ∈ tokens, Spelled token.kind token.text.toList)
    (hrest : stands ends rest = true) :
    Reads Protocol.readEntry scope tokens entry.taken rest := by
  obtain ⟨accepted, mid, haccept, h⟩ := reads_bind_iff.mp h
  refine reads_bind_iff.mpr ⟨accepted, mid, haccept, ?_⟩
  rcases reads_ite_iff.mp h with ⟨haccepted, hpure⟩ | ⟨haccepted, h⟩
  · obtain ⟨rfl, rfl⟩ := reads_pure_iff.mp hpure
    exact reads_ite_iff.mpr (.inl ⟨haccepted, .pure⟩)
  obtain rfl : tokens = mid := by
    rcases reads_accept_iff.mp haccept with ⟨rfl, -⟩ | ⟨-, -, rfl⟩
    · exact absurd rfl haccepted
    · rfl
  obtain ⟨first, mid, hfirst, h⟩ := reads_bind_iff.mp h
  obtain ⟨others, _, hothers, hpure⟩ := reads_bind_iff.mp h
  obtain ⟨rfl, rfl⟩ := reads_pure_iff.mp hpure
  -- Behind the first type stands another one, or else what ends the entry.
  have hmid : stands partEnds mid = true := by
    rcases stands_or_eq_nil hothers with hmore | ⟨-, -, rfl⟩
    · exact stands_mono (by decide) hmore
    · exact stands_mono (by decide) hrest
  obtain ⟨bare, hbare, hbase⟩ := reads_bareAfter hfirst hothers hplain hmid
  have hleads : ∀ word ∈ ["some", "any"], Spelled .identifier word.toList := by decide +kernel
  obtain ⟨type, htype, hbase'⟩ := reads_read_of_reads_bareAfter
    (stopsSpecifiers hfirst hspelled hmid) (modifies_eq_false hfirst hspelled hmid hleads) hbare
  refine reads_ite_iff.mpr (.inr ⟨haccepted, htype.bind_iff.mpr (reads_pure_iff.mpr ⟨?_, rfl⟩)⟩)
  rw [hbase', hbase]
  rfl

/-! ## Names that come back -/

end Protocol.Entry

namespace Protocol

section

variable {texts : List String} (hne : texts ≠ [])
include hne

/-- Texts without the separator come back from their composition. -/
theorem namesIn_intercalate (hsolid : ∀ text ∈ texts, Text.Solid text.toList)
    (hplain : ∀ text ∈ texts, '&' ∉ text.toList) :
    namesIn (String.intercalate " & " texts) = texts := by
  have hseparator : Text.isBlank '&' = false := by decide +kernel
  have hpieces := Text.trim_splitWhere_intercalate hseparator (mt List.map_eq_nil_iff.mp hne)
    (List.forall_mem_map.mpr hsolid) (List.forall_mem_map.mpr hplain)
  have hnames : namesIn (String.intercalate " & " texts) =
      ((Text.splitWhere (· = '&') ([' ', '&', ' '].intercalate (texts.map String.toList))).map
        Text.trimBlank).map String.ofList := by
    rw [namesIn, String.toList_intercalate, List.map_map]
    rfl
  rw [hnames, hpieces, List.map_map]
  simp

/-- Every separator inside one of the texts makes one more name. -/
theorem length_namesIn_intercalate : (namesIn (String.intercalate " & " texts)).length =
    texts.length + (texts.flatMap (·.toList)).count '&' := by
  have hseparator : Text.isBlank '&' = false := by decide +kernel
  have hpieces : texts.map (·.toList) ≠ [] := mt List.map_eq_nil_iff.mp hne
  have hlength := Text.length_splitWhere_intercalate hseparator hpieces
  rw [List.length_map, ← List.flatMap_def] at hlength
  rw [namesIn, List.length_map, String.toList_intercalate]
  exact hlength

end

end Protocol

namespace Protocol.Entry

variable {scope : Scope} {tokens rest : List Token} {entry : Entry} {entries : List Entry}

private theorem length_taken (entry : Entry) : entry.taken.length =
    entry.names.length + (entry.parts.flatMap (·.fullText.toList)).count '&' := by
  cases entry with
  | anyObject => rfl
  | composition first others =>
    rw [taken, Protocol.length_namesIn_intercalate (by simp), List.flatMap_map]
    rfl

private theorem length_flatMap_taken (entries : List Entry) : (entries.flatMap taken).length =
    (entries.flatMap names).length +
      (entries.flatMap fun entry ↦ entry.parts.flatMap (·.fullText.toList)).count '&' := by
  induction entries with
  | nil => rfl
  | cons entry entries ih =>
    simp only [List.flatMap_cons, List.length_append, List.count_append, length_taken, ih]
    omega

private theorem taken_eq_names (hsolid : ∀ part ∈ entry.parts, Text.Solid part.fullText.toList)
    (hplain : ∀ part ∈ entry.parts, '&' ∉ part.fullText.toList) : entry.taken = entry.names := by
  cases entry with
  | anyObject => rfl
  | composition first others =>
    exact Protocol.namesIn_intercalate (by simp) (List.forall_mem_map.mpr hsolid)
      (List.forall_mem_map.mpr hplain)

/-- What is taken from the entries is their names exactly if no type in them holds a separator. -/
theorem flatMap_taken_eq_iff
    (hsolid : ∀ entry ∈ entries, ∀ part ∈ entry.parts, Text.Solid part.fullText.toList) :
    entries.flatMap taken = entries.flatMap names ↔
      ∀ entry ∈ entries, ∀ part ∈ entry.parts, '&' ∉ part.fullText.toList := by
  constructor
  · intro heq
    -- A separator anywhere makes one name too many, and no name is lost to make up for it.
    have hlength := length_flatMap_taken entries
    rw [heq, Nat.left_eq_add, List.count_eq_zero] at hlength
    intro entry hentry part hpart hmem
    exact hlength (List.mem_flatMap.mpr ⟨entry, hentry, List.mem_flatMap.mpr ⟨part, hpart, hmem⟩⟩)
  · intro hplain
    exact List.flatMap_congr fun entry hentry ↦
      taken_eq_names (hsolid entry hentry) (hplain entry hentry)

/-! ## Clauses -/

/-- The texts of the types in an entry have no blanks at their ends. -/
theorem keeps_read_solid {whole : List Token}
    (hspelled : ∀ token ∈ whole, Spelled token.kind token.text.toList) (scope : Scope)
    (tokens : List Token) : Keeps whole (fun entry ↦ ∀ part ∈ entry.parts,
      Text.Solid part.fullText.toList) read scope tokens := by
  have hpart (scope : Scope) (tokens : List Token) : Keeps whole
      (fun part ↦ Text.Solid part.fullText.toList) (component SwiftType.read) scope tokens :=
    SwiftType.keeps_component_solid leavesSuffix_receding.swiftType hspelled
  have hturn (scope : Scope) (tokens : List Token) : Keeps whole
      (Turn.All fun part ↦ Text.Solid part.fullText.toList) (partTurn SwiftType.read) scope
        tokens :=
    .bind .accept fun _ mid ↦ .ite (fun _ ↦ .bind (hpart scope mid) fun _ _ ↦
      .pure fun hsolid _ ↦ hsolid) fun _ ↦ .pure fun _ ↦ trivial
  refine .bind .accept fun _ mid ↦ .ite (fun _ ↦ .pure fun _ ↦ nofun) fun _ ↦
    .bind (hpart scope mid) fun first _ ↦ .bind (.repeated hturn) fun others _ ↦ .pure ?_
  exact fun hothers hfirst _ ↦ List.forall_mem_cons.mpr ⟨hfirst, hothers⟩

private theorem leavesSuffix_read : LeavesSuffix read := by
  have h := leavesSuffix_receding
  have hpart := h.component h.swiftType
  refine h.bind (h.accept _) fun _ ↦ h.ite (h.pure _) (h.bind hpart fun _ ↦
    h.bind (h.repeated (h.bind (h.accept _) fun _ ↦ h.ite ?_ (h.pure _)) fun _ _ ↦
      .accept_ite (Nat.le_refl _) (h.recedes ?_) (.pure id)) fun _ ↦ h.pure _)
  all_goals exact h.bind hpart fun _ ↦ h.pure _

/-- A clause that ends where clauses end is read as what is written. -/
theorem reads_entries (h : Reads (separated read) scope tokens entries rest)
    (hplain : ∀ entry ∈ entries, entry.Plain)
    (hspelled : ∀ token ∈ tokens, Spelled token.kind token.text.toList)
    (hrest : stands ["where", "\x7b"] rest = true) :
    Reads (separated Protocol.readEntry) scope tokens (entries.map taken) rest := by
  refine h.separated_map leavesSuffix_read fun entry front mid hentry hfront hmid hread ↦ ?_
  refine reads_readEntry hread (hplain entry hentry)
    (fun token htoken ↦ hspelled token (hfront.subset htoken)) ?_
  rcases hmid with hcomma | rfl
  · exact stands_mono (by decide) hcomma
  · exact stands_mono (by decide) hrest

end Protocol.Entry

namespace Protocol

variable {scope : Scope} {tokens mid rest : List Token} {protocol : Protocol} {entries : List Entry}

/-- What is inherited stands behind the heading. -/
theorem exists_readInheritance {line : Nat}
    (h : Reads (readDeclaration line) scope tokens protocol rest) :
    ∃ mid back, Reads readHeading scope tokens () mid ∧
      Reads readInheritance scope mid protocol.inherited back := by
  obtain ⟨leads, _, hleads, h⟩ := reads_bind_iff.mp h
  obtain ⟨keyword, _, hkeyword, h⟩ := reads_bind_iff.mp h
  obtain ⟨name, _, hname, h⟩ := reads_bind_iff.mp h
  obtain ⟨arguments, mid, harguments, h⟩ := reads_bind_iff.mp h
  obtain ⟨inherited, back, hinherited, h⟩ := reads_bind_iff.mp h
  refine ⟨mid, back, ?_, ?_⟩
  · exact hleads.bind_iff.mpr (hkeyword.bind_iff.mpr (hname.bind_iff.mpr
      (harguments.bind_iff.mpr .pure)))
  · obtain ⟨_, _, -, h⟩ := reads_bind_iff.mp h
    rcases reads_ite_iff.mp h with ⟨-, h⟩ | ⟨-, h⟩
    on_goal 1 => obtain ⟨_, _, -, h⟩ := reads_bind_iff.mp h
    all_goals
      simp only [reads_bind_iff, reads_pure_iff] at h
      obtain ⟨_, _, -, _, _, -, _, _, -, _, _, -, rfl, -⟩ := h
      exact hinherited

private theorem leavesSuffix_readHeading : LeavesSuffix readHeading := by
  have h := leavesSuffix_receding
  exact h.bind h.leads fun _ ↦ h.bind (h.expect _ _) fun _ ↦ h.bind (h.expectName _) fun _ ↦
    h.bind (h.adjoinedGroup _) fun _ ↦ h.pure _

/-- What is inherited is taken from the entries as they are written. -/
theorem inherited_eq_of_readWritten {line : Nat} {back : List Token}
    (h : Reads (readDeclaration line) scope tokens protocol rest)
    (hwritten : Reads readWritten scope tokens entries back)
    (hplain : ∀ entry ∈ entries, entry.Plain)
    (hspelled : ∀ token ∈ tokens, Spelled token.kind token.text.toList)
    (hback : stands ["where", "\x7b"] back = true) :
    protocol.inherited = entries.flatMap Entry.taken := by
  obtain ⟨mid, _, hheading, hinherited⟩ := exists_readInheritance h
  obtain ⟨_, mid', hheading', hwritten⟩ := reads_bind_iff.mp hwritten
  obtain ⟨-, rfl⟩ := hheading.value_unique hheading'
  obtain ⟨colon, mid, hcolon, hentries⟩ := reads_bind_iff.mp hwritten
  obtain ⟨rfl, his⟩ := reads_expect_iff.mp hcolon
  have hsuffix : mid <:+ tokens :=
    (List.suffix_cons colon mid).trans (leavesSuffix_readHeading hheading')
  have hread := Entry.reads_entries hentries hplain
    (fun token htoken ↦ hspelled token (hsuffix.subset htoken)) hback
  -- The clause is read up to the same token, and so the names in it are the same.
  have hclause :
      Reads readInheritance scope (colon :: mid) (entries.map Entry.taken).flatten back := by
    refine reads_bind_iff.mpr ⟨true, mid, reads_accept_iff.mpr (.inl ⟨rfl, colon, rfl, his⟩), ?_⟩
    exact hread.bind_iff.mpr .pure
  rw [List.flatMap_def]
  exact (hinherited.value_unique hclause).1

theorem keeps_readWritten_solid {whole : List Token}
    (hspelled : ∀ token ∈ whole, Spelled token.kind token.text.toList) :
    Keeps whole (fun entries ↦ ∀ entry ∈ entries, ∀ part ∈ entry.parts,
      Text.Solid part.fullText.toList) readWritten scope tokens :=
  .past leavesSuffix_readHeading fun _ _ ↦ .past (leavesSuffix_receding.expect _ _) fun _ _ ↦
    (Keeps.separated (Entry.keeps_read_solid hspelled)).mono fun _ ↦ And.right

end Protocol

namespace Excerpt

/-- Where the declaration in an excerpt is read. -/
def scope (excerpt : Excerpt) : Scope where
  finish := excerpt.finish
  place := { protocol? := some excerpt.name }

/-- The inheritance clause of the declaration lists the entries, and no type in them ends in a
marker for optionals. -/
def Lists (excerpt : Excerpt) (entries : List Protocol.Entry) : Prop :=
  ∃ rest, Reads Protocol.readWritten excerpt.scope excerpt.items entries rest ∧
    stands ["where", "\x7b"] rest = true ∧ ∀ entry ∈ entries, entry.Plain

variable {text : String} {excerpts : List Excerpt} {excerpt : Excerpt} {protocol : Protocol}
  {entries : List Protocol.Entry}

/-- What an accepted protocol inherits is what its inheritance clause names, exactly if no text of a
type in the clause holds the separator of compositions. -/
theorem inherited_eq_iff (hexcerpts : ofText text = .ok excerpts) (hmem : excerpt ∈ excerpts)
    (hprotocol : excerpt.read.result = .ok protocol) (hlists : excerpt.Lists entries) :
    protocol.inherited = entries.flatMap Protocol.Entry.names ↔
      ∀ entry ∈ entries, ∀ part ∈ entry.parts, '&' ∉ part.fullText.toList := by
  obtain ⟨rest, hwritten, hrest, hplain⟩ := hlists
  have hspelled := spelled_of_mem_items hexcerpts hmem
  have hdeclaration :
      Reads (Protocol.readDeclaration excerpt.line) excerpt.scope excerpt.items protocol _ :=
    ⟨hprotocol, rfl⟩
  obtain ⟨consumed, hitems, hsolid⟩ := Protocol.keeps_readWritten_solid hspelled hwritten
  rw [Protocol.inherited_eq_of_readWritten hdeclaration hwritten hplain hspelled hrest]
  exact Protocol.Entry.flatMap_taken_eq_iff (hsolid ⟨[], rest, hitems.symm⟩)

/-- What a clause names, and what is inherited, can be found by evaluation. -/
theorem exists_lists (text : String) (names inherited : List String)
    (h : (ofText text).toOption.any (fun excerpts ↦ excerpts.any fun excerpt ↦
      let written := Protocol.readWritten excerpt.scope excerpt.items
      excerpt.read.result.toOption.any (·.inherited = inherited) &&
        (stands ["where", "\x7b"] written.rest && written.result.toOption.any fun entries ↦
          entries.flatMap Protocol.Entry.names = names ∧ ∀ entry ∈ entries, entry.Plain)) = true) :
    ∃ excerpts excerpt protocol entries, ofText text = .ok excerpts ∧ excerpt ∈ excerpts ∧
      excerpt.read.result = .ok protocol ∧ excerpt.Lists entries ∧
        entries.flatMap Protocol.Entry.names = names ∧ protocol.inherited = inherited := by
  obtain ⟨excerpts, hexcerpts, h⟩ := (Option.any_eq_true _ _).mp h
  obtain ⟨excerpt, hmem, h⟩ := List.any_eq_true.mp h
  simp only [Bool.and_eq_true, Option.any_eq_true, decide_eq_true_eq,
    Except.toOption_eq_some_iff] at h hexcerpts
  obtain ⟨⟨protocol, hprotocol, hinherited⟩, hrest, entries, hentries, hnames, hplain⟩ := h
  exact ⟨excerpts, excerpt, protocol, entries, hexcerpts, hmem, hprotocol,
    ⟨_, ⟨hentries, rfl⟩, hrest, hplain⟩, hnames, hinherited⟩

/-- A composition, a generic type, `class` and a where clause. -/
theorem inherited_eq_iff_composed : ∃ excerpts excerpt protocol entries,
    ofText "protocol P: A & B<C>, class where T == U \x7b\n\x7d" = .ok excerpts ∧
      excerpt ∈ excerpts ∧ excerpt.read.result = .ok protocol ∧ excerpt.Lists entries ∧
      protocol.inherited = ["A", "B<C>", "AnyObject"] ∧
      ∀ entry ∈ entries, ∀ part ∈ entry.parts, '&' ∉ part.fullText.toList := by
  obtain ⟨excerpts, excerpt, protocol, entries, hexcerpts, hmem, hprotocol, hlists, hnames,
    hinherited⟩ := exists_lists "protocol P: A & B<C>, class where T == U \x7b\n\x7d"
      ["A", "B<C>", "AnyObject"] ["A", "B<C>", "AnyObject"] (by decide +kernel)
  have hplain := (inherited_eq_iff hexcerpts hmem hprotocol hlists).mp
    (hinherited.trans hnames.symm)
  exact ⟨excerpts, excerpt, protocol, entries, hexcerpts, hmem, hprotocol, hlists, hinherited,
    hplain⟩

/-- A composition among generic arguments is split like one outside. -/
theorem not_forall_inherited_eq : ¬ ∀ (text : String) (excerpts : List Excerpt)
    (excerpt : Excerpt) (protocol : Protocol) (entries : List Protocol.Entry),
    ofText text = .ok excerpts → excerpt ∈ excerpts → excerpt.read.result = .ok protocol →
      excerpt.Lists entries → protocol.inherited = entries.flatMap Protocol.Entry.names := by
  intro h
  obtain ⟨excerpts, excerpt, protocol, entries, hexcerpts, hmem, hprotocol, hlists, hnames,
    hinherited⟩ := exists_lists "protocol P: Base<A & B> \x7b\n\x7d" ["Base<A & B>"]
      ["Base<A", "B>"] (by decide +kernel)
  have heq := h _ _ _ _ _ hexcerpts hmem hprotocol hlists
  rw [hnames, hinherited] at heq
  exact absurd heq (by decide)

end Excerpt

end TestDouble
