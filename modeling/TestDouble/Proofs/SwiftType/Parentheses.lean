import TestDouble.Mock.Basic
import TestDouble.Proofs.SwiftType.Closers
import TestDouble.Proofs.SwiftType.Depth
import TestDouble.Proofs.SwiftType.Derived
import TestDouble.Proofs.Token.Parentheses

/-!
# Redundant parentheses

A type in parentheses is read as a tuple of one element, and a function type is looked for in that
element. What is found does not depend on how many parentheses there are, since each pair is the
element of the next. A marker behind the last of them makes the closure optional and hides nothing.
So a closure is kept and called in the same way however many parentheses its type has.
-/

namespace TestDouble

open Reader Token

namespace Optionality

variable (optionality : Optionality)

/-- The suffix for the marker. -/
def suffixes : Optionality → List SwiftType.Suffix
  | required => []
  | optional => [.optional]
  | implicitlyUnwrapped => [.implicitlyUnwrapped]

/-- The marker behind a token on the line. -/
def marks (line : Nat) : List Token :=
  optionality.suffixes.map fun suffix ↦ { kind := .operator, text := suffix.text, line }

private theorem scanFrom_marker (line : Nat) :
    scanFrom line false optionality.marker.toList =
      .ok ⟨optionality.marks line, ⟨line, false⟩⟩ := by
  have hnone : scanFrom line false [] = .ok ⟨[], ⟨line, false⟩⟩ := scanFrom.eq_1 line false
  have hmark {c : Char} (hc : c ∈ closedMarks) (hspelled : Spelled .operator [c]) :
      scanFrom line false [c] =
        .ok ⟨[⟨.operator, String.ofList [c], line, false⟩], ⟨line, false⟩⟩ := by
    rw [scanFrom_closedMark hc (by decide) hspelled, hnone]
    rfl
  cases optionality with
  | required => exact hnone
  | optional => exact hmark (by decide) (by decide +kernel)
  | implicitlyUnwrapped => exact hmark (by decide) (by decide +kernel)

end Optionality

namespace SwiftType

variable {scope : Scope} {tokens rest : List Token} {type : SwiftType}

/-! ## How function types begin -/

private theorem elements?_of_reads_primary {reader : Reader SwiftType} {found : Primary}
    (h : Reads (primary reader) scope tokens found rest) (hround : stands ["("] tokens = false) :
    found.elements? = none := by
  have hread := reads_ahead_bind_iff.mp h
  rcases tokens with _ | ⟨token, tokens⟩
  · exact (not_reads_fail (reads_ahead_bind_iff.mp hread)).elim
  rw [stands_singleton_cons] at hround
  -- Only a tuple has elements. Arrays, dictionaries and names have none.
  rcases reads_ite_iff.mp hread with ⟨hopener, -⟩ | ⟨-, hread⟩
  · simp [hround] at hopener
  rcases reads_ite_iff.mp hread with ⟨-, hread⟩ | ⟨-, hread⟩
  · obtain ⟨first, mid, -, hread⟩ := reads_bind_iff.mp (reads_skip_bind_iff.mp hread)
    obtain ⟨colon, mid', -, hread⟩ := reads_bind_iff.mp hread
    rcases reads_ite_iff.mp hread with ⟨-, hread⟩ | ⟨-, hread⟩
    · obtain ⟨value, mid'', -, hread⟩ := reads_bind_iff.mp hread
      obtain ⟨closer, mid''', -, hread⟩ := reads_bind_iff.mp hread
      obtain ⟨rfl, -⟩ := reads_pure_iff.mp hread
      rfl
    · obtain ⟨closer, mid'', -, hread⟩ := reads_bind_iff.mp hread
      obtain ⟨rfl, -⟩ := reads_pure_iff.mp hread
      rfl
  rcases reads_ite_iff.mp hread with ⟨-, hread⟩ | ⟨-, hread⟩
  · obtain ⟨arguments, mid, -, hread⟩ := reads_bind_iff.mp (reads_skip_bind_iff.mp hread)
    obtain ⟨rfl, -⟩ := reads_pure_iff.mp hread
    rfl
  · exact (not_reads_fail (reads_ahead_bind_iff.mp hread)).elim

private theorem parenthesizedSignature?_eq_none {component : Component}
    (h : component.elements? = none) : parenthesizedSignature? component = none := by
  rcases component with ⟨⟨text, elements?⟩, suffixes⟩
  obtain rfl : elements? = none := h
  rfl

/-- Only what begins with a parenthesis has a signature. -/
theorem round_of_reads_bareAfter {reader : Reader SwiftType} {lead : String} {found : Bare}
    (h : Reads (bareAfter reader lead) scope tokens found rest)
    (hsignature : found.signature?.isSome = true) : stands ["("] tokens = true := by
  by_contra hround
  rw [Bool.not_eq_true] at hround
  have hread := reads_sees_bind_iff.mp h
  rw [hround] at hread
  obtain ⟨first, mid, hfirst, hread⟩ := reads_bind_iff.mp hread
  -- No function type begins without a parenthesis, and no other has a signature unless it stands in
  -- parentheses.
  rcases reads_ite_iff.mp (reads_ahead_bind_iff.mp hread) with ⟨harrow, -⟩ | ⟨-, hread⟩
  · cases harrow
  rcases reads_ite_iff.mp (reads_sees_bind_iff.mp hread) with ⟨-, hread⟩ | ⟨-, hread⟩
  · obtain ⟨others, mid', -, hread⟩ := reads_bind_iff.mp hread
    obtain ⟨rfl, -⟩ := reads_pure_iff.mp hread
    cases hsignature
  rcases reads_ite_iff.mp hread with ⟨-, hread⟩ | ⟨-, hread⟩
  · obtain ⟨rfl, -⟩ := reads_pure_iff.mp hread
    cases hsignature
  obtain ⟨rfl, -⟩ := reads_pure_iff.mp hread
  obtain ⟨primary, mid', hprimary, hsuffixes⟩ := reads_bind_iff.mp hfirst
  obtain ⟨suffixes, mid'', -, hpure⟩ := reads_bind_iff.mp hsuffixes
  obtain ⟨rfl, -⟩ := reads_pure_iff.mp hpure
  have hnone : parenthesizedSignature? { primary with suffixes } = none :=
    parenthesizedSignature?_eq_none (elements?_of_reads_primary hprimary hround)
  rw [Component.bare, hnone] at hsignature
  split at hsignature <;> cases hsignature

/-- A parenthesis comes first, or second behind a word. -/
inductive BeginsRound : List Token → Prop
  | bare {opener : Token} {rest : List Token} : opener.is "(" = true → BeginsRound (opener :: rest)
  | led {word opener : Token} {rest : List Token} : word.text ∈ ["some", "any"] →
      opener.is "(" = true → BeginsRound (word :: opener :: rest)

private theorem exists_is_of_stands {text : String} (h : stands [text] tokens = true) :
    ∃ token rest, tokens = token :: rest ∧ token.is text = true := by
  rcases tokens with _ | ⟨token, rest⟩
  · cases h
  · exact ⟨token, rest, rfl, stands_singleton_cons ▸ h⟩

private theorem beginsRound_of_reads_bare {reader : Reader SwiftType} {found : Bare}
    (h : Reads (bare reader) scope tokens found rest)
    (hsignature : found.signature?.isSome = true) : BeginsRound tokens := by
  rw [bare_eq] at h
  obtain ⟨word, mid, hlead, hread⟩ := reads_bind_iff.mp h
  obtain ⟨opener, back, rfl, hopener⟩ :=
    exists_is_of_stands (round_of_reads_bareAfter hread hsignature)
  rcases reads_ite_iff.mp (reads_ahead_bind_iff.mp hlead) with ⟨hmodifies, hlead⟩ | ⟨-, hlead⟩
  · obtain ⟨token, others, rfl, hword, -⟩ := modifies_eq_true_iff.mp hmodifies
    have hpure := reads_next?_bind_iff.mp hlead
    obtain ⟨-, rfl⟩ := reads_pure_iff.mp hpure
    exact .led hword hopener
  · obtain ⟨-, rfl⟩ := reads_pure_iff.mp hlead
    exact .bare hopener

/-- A specifier is one of the attributes or the word `inout`. -/
theorem specifiers_eq_nil {specifiers : List Specifier}
    (hwritten : specifiers.filterMap Specifier.written? = [])
    (hinout : specifiers.contains .inoutWord = false) : specifiers = [] := by
  rcases specifiers with _ | ⟨_ | _, specifiers⟩
  · rfl
  · simp [Specifier.written?] at hwritten
  · simp at hinout

/-- A type without specifiers that has a signature begins with a parenthesis. -/
theorem beginsRound_of_reads {reader : Reader SwiftType}
    (h : Reads (annotated reader) scope tokens type rest) (hattributes : type.attributes = [])
    (hinout : type.isInout = false) (hsignature : type.signature?.isSome = true) :
    BeginsRound tokens := by
  obtain ⟨specifiers, mid, hspecifiers, hread⟩ := reads_bind_iff.mp h
  obtain ⟨found, mid', hbare, hread⟩ := reads_bind_iff.mp hread
  have hpure := reads_tell_bind_iff.mp hread
  obtain ⟨rfl, rfl⟩ := reads_pure_iff.mp hpure
  obtain ⟨front, pieces, rfl, rfl, hspecified, -⟩ := exists_specified_of_reads hspecifiers
  obtain rfl := List.map_eq_nil_iff.mp (specifiers_eq_nil hattributes hinout)
  cases hspecified
  exact beginsRound_of_reads_bare hbare hsignature

/-! ## Markers -/

private theorem not_arrow_of_mem_marks (optionality : Optionality) (line : Nat) :
    ∀ token ∈ optionality.marks line, token.is "->" = false := by
  cases optionality <;> simp [Optionality.marks, Optionality.suffixes, Suffix.text, Token.is]

private theorem reads_marks {reader : Reader SwiftType} (optionality : Optionality) (line : Nat)
    (scope : Scope) :
    Reads (repeated (suffix reader)) scope (optionality.marks line) optionality.suffixes [] := by
  have hend (number : Nat) : Reads (repeatFrom (fun _ ↦ suffix reader) number) scope [] [] [] := by
    refine (reads_suffix_stop ?_).repeatFrom_stop
    rintro _ ⟨⟩
  have hmark {suffix : Suffix} {mark : Token} (h : Reads (SwiftType.suffix reader) scope [mark]
      (.more suffix) []) : Reads (repeated (SwiftType.suffix reader)) scope [mark] [suffix] [] :=
    have hlt : [].length < [mark].length := Nat.zero_lt_one
    h.repeatFrom_more hlt (hend 1)
  cases optionality with
  | required => exact hend 0
  | optional => exact hmark ⟨rfl, rfl⟩
  | implicitlyUnwrapped => exact hmark ⟨rfl, rfl⟩

private theorem bare_enclosed (type : SwiftType) (optionality : Optionality) :
    Component.bare { type.enclosed with suffixes := optionality.suffixes } =
      type.enclosed.marked optionality := by
  have hmark {suffix : Suffix} (h : suffix.optionality? = some optionality) :
      (type.enclosed.withSuffix suffix).bare = type.enclosed.marked optionality :=
    Component.bare_withSuffix h
  cases optionality with
  | required => exact Component.bare_of_unmarked rfl
  | optional => exact hmark (rfl : Suffix.optional.optionality? = _)
  | implicitlyUnwrapped => exact hmark (rfl : Suffix.implicitlyUnwrapped.optionality? = _)

theorem modifies_eq_false {words : List String} {word : Token} (hword : word.text ∉ words)
    (rest : List Token) : modifies words (word :: rest) = false := by
  rw [Bool.eq_false_iff, ne_eq, modifies_eq_true_iff]
  rintro ⟨_, _, ⟨⟩, hmem, -⟩
  exact hword hmem

/-! ## Elements without a label -/

/-- The tokens are all of a type, which is the only element of a tuple where they are put in
parentheses. -/
structure Alone (tokens : List Token) (type : SwiftType) : Prop where
  reads : ∃ scope, Reads read scope tokens type []
  begins : BeginsRound tokens
  spelled : ∀ token ∈ tokens, Spelled token.kind token.text.toList

theorem BeginsRound.unlabelled (h : BeginsRound tokens)
    (hspelled : ∀ token ∈ tokens, Spelled token.kind token.text.toList) (after : List Token) :
    Unlabelled (tokens ++ after) := by
  have hround {opener : Token} (hopener : opener.is "(" = true)
      (hspelled : Spelled opener.kind opener.text.toList) (back : List Token) :
      Unlabelled (opener :: back) := by
    have hkind := kind_of_is hspelled hopener spelled_openRound
    cases back with
    | nil => trivial
    | cons => exact fun hname ↦ absurd (hkind.symm.trans hname) (by decide)
  cases h with
  | bare hopener => exact hround hopener (hspelled _ List.mem_cons_self) _
  | led hword hopener =>
    obtain ⟨-, hrest⟩ := List.forall_mem_cons.mp hspelled
    refine (hround hopener (hrest _ List.mem_cons_self) _).cons (.of_cons ?_)
    rw [text_eq_of_is hopener]
    decide

theorem BeginsRound.avoids (h : BeginsRound tokens) (after : List Token) :
    Avoids [")"] (tokens ++ after) := by
  cases h with
  | bare hopener =>
    refine .of_cons ?_
    rw [text_eq_of_is hopener]
    decide
  | led hword _ =>
    have hall : ∀ word ∈ ["some", "any"], word ∉ [")"] := by decide
    exact .of_cons (hall _ hword)

namespace Alone

variable (h : Alone tokens type)
include h

theorem reads_element (scope : Scope) {after : List Token} (hafter : Closes after) :
    Reads (element read) scope (tokens ++ after) ⟨"", type, false⟩ after := by
  obtain ⟨scope', hread⟩ := h.reads
  have hlabel := Labels.none.reads (h.begins.unlabelled h.spelled after) scope
  have htype : Reads read scope (tokens ++ after) type after := hafter.read hread
  have hdots : Reads (accept "...") scope after false after :=
    reads_accept_iff.mpr (.inr ⟨rfl, hafter.stands_eq_false (by decide), rfl⟩)
  exact hlabel.bind_iff.mpr (htype.bind_iff.mpr (hdots.bind_iff.mpr .pure))

theorem reads_elementTurn (scope : Scope) (opener : Token) {after : List Token}
    (hafter : Closes after) :
    Reads (elementTurn read opener) scope (tokens ++ after) (.last ⟨"", type, false⟩) after := by
  have hcloser : stands [")"] (tokens ++ after) = false :=
    (h.begins.avoids after).stands_eq_false (by decide)
  have hnonempty : (tokens ++ after).isEmpty = false := by
    obtain ⟨token, more, rfl, -⟩ := hafter.closer
    simp
  rw [elementTurn, reads_ahead_bind_iff, hcloser, if_neg Bool.false_ne_true, hnonempty,
    if_neg Bool.false_ne_true]
  refine (h.reads_element scope hafter).bind_iff.mpr ?_
  exact (reads_accept_bind_iff_of_not_stands (hafter.stands_eq_false (by decide))).mpr .pure

theorem reads_tuple (scope : Scope) (finish : Finish) {rest : List Token}
    (hrest : ∀ token ∈ rest, token.is "->" = false) :
    Reads (tuple read) scope (parenthesized tokens finish ++ rest) type.enclosed.toPrimary
      rest := by
  -- The element is read up to the closing parenthesis, with whatever stands behind it in sight.
  have hafter : Closes (parenthesis ")" finish :: rest) :=
    ⟨⟨_, _, rfl, rfl, rfl⟩, List.forall_mem_cons.mpr ⟨rfl, hrest⟩⟩
  have hturn := h.reads_elementTurn scope (parenthesis "(" ⟨1, false⟩) hafter
  rw [tuple_eq, parenthesized, List.cons_append, List.append_assoc, reads_expect_bind_iff_of_is rfl]
  refine (Reads.repeatFrom_last hturn).bind_iff.mpr ((reads_expect_bind_iff_of_is rfl).mpr ?_)
  rw [List.map_singleton, String.intercalate_singleton, text_element]
  exact .pure

theorem reads_component (scope : Scope) (finish : Finish) (optionality : Optionality) (line : Nat) :
    Reads (component read) scope (parenthesized tokens finish ++ optionality.marks line)
      { type.enclosed with suffixes := optionality.suffixes } [] := by
  have htuple := h.reads_tuple scope finish (not_arrow_of_mem_marks optionality line)
  have hprimary : Reads (primary read) scope
      (parenthesized tokens finish ++ optionality.marks line) type.enclosed.toPrimary
      (optionality.marks line) :=
    reads_ahead_bind_iff.mpr (reads_ite_iff.mpr (.inl ⟨rfl, htuple⟩))
  exact hprimary.bind_iff.mpr ((reads_marks optionality line scope).bind_iff.mpr .pure)

theorem reads_bare (scope : Scope) (finish : Finish) (optionality : Optionality) (line : Nat) :
    Reads (bare read) scope (parenthesized tokens finish ++ optionality.marks line)
      (type.enclosed.marked optionality) [] := by
  have hlead : Reads lead scope (parenthesized tokens finish ++ optionality.marks line) ""
      (parenthesized tokens finish ++ optionality.marks line) := by
    refine reads_ahead_bind_iff.mpr (reads_ite_iff.mpr (.inr ⟨?_, .pure⟩))
    rw [parenthesized, List.cons_append, modifies_eq_false (by decide)]
    exact Bool.false_ne_true
  have hcomponent := h.reads_component scope finish optionality line
  have hnone : arrowAhead [] = false := rfl
  rw [bare_eq]
  refine hlead.bind_iff.mpr (reads_sees_bind_iff.mpr (hcomponent.bind_iff.mpr ?_))
  rw [reads_ahead_bind_iff, hnone, Bool.and_false, if_neg Bool.false_ne_true]
  refine reads_sees_bind_iff.mpr (reads_ite_iff.mpr (.inr ⟨Bool.false_ne_true, ?_⟩))
  refine reads_ite_iff.mpr (.inr ⟨fun hne ↦ hne rfl, ?_⟩)
  exact reads_pure_iff.mpr ⟨bare_enclosed type optionality, rfl⟩

/-- In parentheses the type is read as one that has the marker behind them. -/
theorem reads_marked (scope : Scope) (finish : Finish) (optionality : Optionality) (line : Nat) :
    Reads read scope (parenthesized tokens finish ++ optionality.marks line)
      (type.enclosed.marked optionality).type [] := by
  have hstops : StopsSpecifiers (parenthesized tokens finish ++ optionality.marks line) := by
    have hword : (parenthesis "(" ⟨1, false⟩).text ∉ ownershipSpecifiers := by decide
    refine ⟨?_, rfl, modifies_eq_false hword _⟩
    rintro _ ⟨⟩ ⟨⟩
  have hspecifiers : Reads (repeated specifier) scope
      (parenthesized tokens finish ++ optionality.marks line) []
      (parenthesized tokens finish ++ optionality.marks line) :=
    (hstops.reads scope).repeatFrom_stop
  rw [read_eq_annotated]
  refine hspecifiers.bind_iff.mpr ((h.reads_bare scope finish optionality line).bind_iff.mpr ?_)
  exact reads_tell_bind_iff.mpr .pure

theorem parenthesized (finish : Finish) :
    Alone (parenthesized tokens finish) (type.enclosed.marked .required).type where
  reads := by
    have hread := h.reads_marked ⟨finish, {}⟩ finish .required 1
    have hnone : Optionality.required.marks 1 = [] := rfl
    rw [hnone, List.append_nil] at hread
    exact ⟨_, hread⟩
  begins := .bare rfl
  spelled := by
    rw [Token.parenthesized, List.forall_mem_cons, List.forall_mem_append]
    exact ⟨spelled_openRound, h.spelled, List.forall_mem_singleton.mpr spelled_closeRound⟩

end Alone

/-! ## Any number of parentheses -/

theorem signature?_enclosed (hrequired : type.optionality = .required) (optionality : Optionality) :
    (type.enclosed.marked optionality).type.signature? = type.signature? :=
  signature_enclosed hrequired

/-- A type in one more pair of parentheses, with a marker behind them. -/
theorem Alone.readsBack {text : String} {finish : Finish} (h : Alone tokens type)
    (hscans : Scans text.toList tokens finish) (optionality : Optionality) :
    ReadsBack ("(" ++ text ++ ")" ++ optionality.marker)
      (type.enclosed.marked optionality).type := by
  refine ⟨⟨Token.parenthesized tokens finish ++ optionality.marks finish.line,
    ⟨finish.line, false⟩⟩, ?_, fun scope ↦ h.reads_marked scope finish optionality finish.line⟩
  rw [Tokens.scan, String.toList_append, hscans.append_parenthesized, optionality.scanFrom_marker]
  rfl

/-- However many parentheses there are, each pair has one element, and its signature is the one of
the text amid them. -/
theorem Alone.exists_inParentheses {text : String} {finish : Finish} (h : Alone tokens type)
    (hscans : Scans text.toList tokens finish) (hrequired : type.optionality = .required)
    (count : Nat) :
    ∃ tokens' finish' type', Scans (inParentheses text count).toList tokens' finish' ∧
      Alone tokens' type' ∧ type'.optionality = .required ∧ type'.signature? = type.signature? := by
  induction count with
  | zero => exact ⟨tokens, finish, type, hscans, h, hrequired, rfl⟩
  | succ count ih =>
    obtain ⟨tokens', finish', type', hscans', halone, hrequired', hsignature⟩ := ih
    refine ⟨_, _, _, hscans'.parenthesized, halone.parenthesized finish', rfl, ?_⟩
    rw [signature?_enclosed hrequired', hsignature]

theorem Alone.exists_readsBack {text : String} {finish : Finish} (h : Alone tokens type)
    (hscans : Scans text.toList tokens finish) (hrequired : type.optionality = .required)
    {count : Nat} (hcount : 1 ≤ count) (optionality : Optionality) :
    ∃ wrapped : SwiftType, ReadsBack (inParentheses text count ++ optionality.marker) wrapped ∧
      wrapped.signature? = type.signature? ∧ wrapped.optionality = optionality ∧
      wrapped.attributes = [] := by
  obtain ⟨inner, rfl⟩ := Nat.exists_eq_add_of_le' hcount
  obtain ⟨tokens', finish', type', hscans', halone, hrequired', hsignature⟩ :=
    h.exists_inParentheses hscans hrequired inner
  -- The marker stands behind the outermost pair, which is the only one that it belongs to.
  refine ⟨_, halone.readsBack hscans' optionality, ?_, rfl, rfl⟩
  rw [signature?_enclosed hrequired', hsignature]

theorem ReadsBack.unique {source : String} {first second : SwiftType} (h : ReadsBack source first)
    (h' : ReadsBack source second) : first = second := by
  obtain ⟨scanned, hscan, hread⟩ := h
  obtain ⟨scanned', hscan', hread'⟩ := h'
  obtain rfl := Except.ok.inj (hscan.symm.trans hscan')
  let scope : Scope := { finish := scanned.finish }
  exact ((hread scope).value_unique (hread' scope)).1

/-! ## Closures of parameters -/

/-- Types of closures that are passed and called in the same way. -/
structure PassedAlike (first second : SwiftType) : Prop where
  signature? : first.signature? = second.signature?
  optionality : first.optionality = second.optionality
  attributes : first.attributes = second.attributes

namespace PassedAlike

variable {first second : SwiftType} (h : PassedAlike first second)
include h

theorem isElided_eq (parameter : Parameter) :
    (Slot.ofParameter { parameter with type := first }).isElided =
      (Slot.ofParameter { parameter with type := second }).isElided := by
  have hstorable : Parameter.isStorable { parameter with type := first } =
      Parameter.isStorable { parameter with type := second } := by
    simp only [Parameter.isStorable, Parameter.isClosure, isClosure, isEscaping, isOptional,
      h.signature?, h.optionality, h.attributes]
  rw [Slot.ofParameter, Slot.ofParameter, hstorable]
  split <;> rfl

theorem callback?_eq (method : Method) (name : String) (parameter : Parameter) :
    Callback.ofParameter? method name { parameter with type := first } =
      Callback.ofParameter? method name { parameter with type := second } := by
  simp only [Callback.ofParameter?, isOptional, h.signature?, h.optionality]

end PassedAlike

/-- Redundant parentheses hide no closure. A function type without specifiers may be put in any
number of pairs of parentheses and marked behind the last, if its text does not end inside a comment
that would take a closing parenthesis with it. It is then read in full, with its signature and the
marker, and a parameter of that type is kept and called the same for each number of pairs. -/
theorem readsBack_inParentheses {source : String} {scanned : Tokens} {scope : Scope}
    {type : SwiftType} {signature : Signature SwiftType}
    (hscan : Tokens.scan source = .ok scanned) (hread : Reads read scope scanned.items type [])
    (hsignature : type.signature? = some signature) (hrequired : type.optionality = .required)
    (hattributes : type.attributes = []) (hinout : type.isInout = false)
    (hcomment : endsInLineComment source.toList = false) (optionality : Optionality) :
    (∀ count, 1 ≤ count → ∃ wrapped : SwiftType,
      ReadsBack (inParentheses source count ++ optionality.marker) wrapped ∧
      wrapped.signature? = some signature ∧ wrapped.optionality = optionality) ∧
    ∀ count count' first second, 1 ≤ count → 1 ≤ count' →
      ReadsBack (inParentheses source count ++ optionality.marker) first →
      ReadsBack (inParentheses source count' ++ optionality.marker) second →
      ∀ parameter : Parameter,
        (Slot.ofParameter { parameter with type := first }).isElided =
          (Slot.ofParameter { parameter with type := second }).isElided ∧
        ∀ method name, Callback.ofParameter? method name { parameter with type := first } =
          Callback.ofParameter? method name { parameter with type := second } := by
  have halone : Alone scanned.items type := by
    refine ⟨⟨scope, hread⟩, ?_, spelled_of_mem hscan⟩
    rw [read_eq_annotated] at hread
    exact beginsRound_of_reads hread hattributes hinout (hsignature ▸ rfl)
  have hscans := scans_of_scan hscan hcomment
  constructor
  · intro count hcount
    obtain ⟨wrapped, hreads, hsame, hoptionality, -⟩ :=
      halone.exists_readsBack hscans hrequired hcount optionality
    exact ⟨wrapped, hreads, hsame.trans hsignature, hoptionality⟩
  · intro count count' first second hcount hcount' hfirst hsecond parameter
    obtain ⟨_, hreads, hsignature, hoptionality, hattributes⟩ :=
      halone.exists_readsBack hscans hrequired hcount optionality
    obtain ⟨_, hreads', hsignature', hoptionality', hattributes'⟩ :=
      halone.exists_readsBack hscans hrequired hcount' optionality
    -- A text is read back as one type only.
    obtain rfl := hfirst.unique hreads
    obtain rfl := hsecond.unique hreads'
    have halike : PassedAlike first second := ⟨hsignature.trans hsignature'.symm,
      hoptionality.trans hoptionality'.symm, hattributes.trans hattributes'.symm⟩
    exact ⟨halike.isElided_eq parameter,
      fun method name ↦ halike.callback?_eq method name parameter⟩

/-- Whether the text is all of a type with a signature and the given marker, and without
specifiers. -/
def isClosureText (source : String) (optionality : Optionality) : Bool :=
  (Tokens.scan source).toOption.any fun scanned ↦
    (read ⟨scanned.finish, {}⟩ scanned.items).rest.isEmpty &&
    (read ⟨scanned.finish, {}⟩ scanned.items).result.toOption.any fun type ↦
      type.signature?.isSome && type.optionality = optionality && type.attributes = [] &&
      !type.isInout

private theorem exists_of_isClosureText {source : String} {optionality : Optionality}
    (h : isClosureText source optionality = true) :
    ∃ scanned type signature, Tokens.scan source = .ok scanned ∧
      Reads read ⟨scanned.finish, {}⟩ scanned.items type [] ∧
      type.signature? = some signature ∧ type.optionality = optionality ∧ type.attributes = [] ∧
      type.isInout = false := by
  obtain ⟨scanned, hscanned, hread⟩ := (Option.any_eq_true _ _).mp h
  rw [Bool.and_eq_true] at hread
  obtain ⟨hrest, hresult⟩ := hread
  obtain ⟨type, htype, hfound⟩ := (Option.any_eq_true _ _).mp hresult
  simp only [Bool.and_eq_true, decide_eq_true_eq, Bool.not_eq_true'] at hfound
  obtain ⟨⟨⟨hclosure, hoptionality⟩, hattributes⟩, hinout⟩ := hfound
  obtain ⟨signature, hsignature⟩ := Option.isSome_iff_exists.mp hclosure
  exact ⟨scanned, type, signature, Except.toOption_eq_some_iff.mp hscanned,
    ⟨Except.toOption_eq_some_iff.mp htype, List.isEmpty_iff.mp hrest⟩, hsignature, hoptionality,
    hattributes, hinout⟩

/-- An optional closure in two pairs of parentheses, with a comment in the inner one. -/
theorem readsBack_inParentheses_throwing :
    ∃ scanned type signature wrapped,
      Tokens.scan "(Int, [String]?)\nthrows -> Void // then\n" = .ok scanned ∧
      Reads read ⟨scanned.finish, {}⟩ scanned.items type [] ∧
      type.signature? = some signature ∧ type.optionality = .required ∧ type.attributes = [] ∧
      type.isInout = false ∧
      endsInLineComment "(Int, [String]?)\nthrows -> Void // then\n".toList = false ∧
      ReadsBack "(((Int, [String]?)\nthrows -> Void // then\n))?" wrapped ∧
      wrapped.signature? = some signature ∧ wrapped.optionality = .optional := by
  have hcomment :
      endsInLineComment "(Int, [String]?)\nthrows -> Void // then\n".toList = false := by
    decide +kernel
  have hclosure :
      isClosureText "(Int, [String]?)\nthrows -> Void // then\n" .required = true := by
    decide +kernel
  have htext : inParentheses "(Int, [String]?)\nthrows -> Void // then\n" 2 ++ "?" =
      "(((Int, [String]?)\nthrows -> Void // then\n))?" := by
    decide +kernel
  obtain ⟨scanned, type, signature, hscan, hread, hsignature, hrequired, hattributes, hinout⟩ :=
    exists_of_isClosureText hclosure
  obtain ⟨hwrapped, -⟩ := readsBack_inParentheses hscan hread hsignature hrequired hattributes
    hinout hcomment .optional
  obtain ⟨wrapped, hreads, hagain, hoptional⟩ := hwrapped 2 (by decide)
  exact ⟨scanned, type, signature, wrapped, hscan, hread, hsignature, hrequired, hattributes,
    hinout, hcomment, htext ▸ hreads, hagain, hoptional⟩

/-- A comment that goes up to the end of the text takes the closing parenthesis with it, and a
marker inside the parentheses hides the signature. -/
theorem not_readsBack_inParentheses :
    (∃ scanned type signature, Tokens.scan "(Int) -> Void // note" = .ok scanned ∧
      Reads read ⟨scanned.finish, {}⟩ scanned.items type [] ∧
      type.signature? = some signature ∧ type.optionality = .required ∧ type.attributes = [] ∧
      type.isInout = false ∧
      ∀ wrapped, ¬ ReadsBack
        (inParentheses "(Int) -> Void // note" 1 ++ Optionality.required.marker) wrapped) ∧
    ∃ scanned type signature, Tokens.scan "((Int) -> Void)?" = .ok scanned ∧
      Reads read ⟨scanned.finish, {}⟩ scanned.items type [] ∧
      type.signature? = some signature ∧ type.optionality = .optional ∧ type.attributes = [] ∧
      type.isInout = false ∧
      ∀ wrapped, ReadsBack
        (inParentheses "((Int) -> Void)?" 1 ++ Optionality.required.marker) wrapped →
          wrapped.signature? ≠ some signature := by
  constructor
  · have hclosure : isClosureText "(Int) -> Void // note" .required = true := by decide +kernel
    have hrefused : (Tokens.scan (inParentheses "(Int) -> Void // note" 1 ++
        Optionality.required.marker)).toOption.all (fun scanned ↦
          (read ⟨scanned.finish, {}⟩ scanned.items).result.toOption.isNone) = true := by
      decide +kernel
    obtain ⟨scanned, type, signature, hscan, hread, hsignature, hrequired, hattributes, hinout⟩ :=
      exists_of_isClosureText hclosure
    refine ⟨scanned, type, signature, hscan, hread, hsignature, hrequired, hattributes, hinout, ?_⟩
    rintro wrapped ⟨found, hfound, hreads⟩
    have hresult := (hreads ⟨found.finish, {}⟩).result_eq
    rw [hfound] at hrefused
    simp [Except.toOption, hresult] at hrefused
  · have hclosure : isClosureText "((Int) -> Void)?" .optional = true := by decide +kernel
    have hhidden : (Tokens.scan (inParentheses "((Int) -> Void)?" 1 ++
        Optionality.required.marker)).toOption.all (fun scanned ↦
          (read ⟨scanned.finish, {}⟩ scanned.items).result.toOption.all
            (·.signature?.isNone)) = true := by
      decide +kernel
    obtain ⟨scanned, type, signature, hscan, hread, hsignature, hoptional, hattributes, hinout⟩ :=
      exists_of_isClosureText hclosure
    refine ⟨scanned, type, signature, hscan, hread, hsignature, hoptional, hattributes, hinout, ?_⟩
    rintro wrapped ⟨found, hfound, hreads⟩ hsame
    have hresult := (hreads ⟨found.finish, {}⟩).result_eq
    rw [hfound] at hhidden
    simp [Except.toOption, hresult, hsame] at hhidden

end SwiftType

end TestDouble
