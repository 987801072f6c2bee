import TestDouble.Proofs.SwiftType.Bare

/-!
# What stands in front of a type

Attributes, ownership specifiers and `inout` stand in front of a type in any order. In the text of
the type `inout` comes last. Moving it there changes what the others are followed by, and each of
them looks at that.
-/

namespace TestDouble

open Reader Token

namespace SwiftType

/-! ## Specifiers and their tokens -/

/-- A specifier with what its tokens are made of. -/
inductive Piece where
  /-- An attribute, with the tokens of its arguments if it has any. -/
  | attributed (name : String) (arguments? : Option (List Token))
  | inoutWord
  | ownership (word : String)
  deriving DecidableEq

namespace Piece

def specifier : Piece → Specifier
  | attributed name none => .written name
  | attributed name (some inner) => .written (name ++ ("(" ++ Token.join inner ++ ")"))
  | inoutWord => .inoutWord
  | ownership word => .written word

/-- The tokens that spell the specifier. -/
def tokens : Piece → List Token
  | attributed name none => [inLine .attribute name]
  | attributed name (some inner) =>
    inLine .attribute name ::
      (inLine .punctuation "(" :: (inner.map unbroken ++ [inLine .punctuation ")"]))
  | inoutWord => [inLine .keyword "inout"]
  | ownership word => [inLine .identifier word]

/-- The specifier has a text that is scanned as its tokens. -/
def Sound : Piece → Prop
  | attributed name none => Spelled .attribute name.toList
  | attributed name (some inner) =>
    Spelled .attribute name.toList ∧ name ∈ attributesWithArguments ∧
      (∀ token ∈ inner, Spelled token.kind token.text.toList) ∧ PlainArguments inner
  | inoutWord => True
  | ownership word => word ∈ ownershipSpecifiers

def text : Piece → String
  | attributed name none => name
  | attributed name (some inner) => name ++ ("(" ++ Token.join inner ++ ")")
  | inoutWord => "inout"
  | ownership word => word

/-- The specifier on a line of its own. -/
def unbroken : Piece → Piece
  | attributed name (some inner) => attributed name (some (inner.map Token.unbroken))
  | piece => piece

def isOwnership : Piece → Bool
  | ownership _ => true
  | _ => false

/-- Whether the specifier is read in front of the tokens. -/
def Admits : Piece → List Token → Prop
  | attributed name none, after => name ∈ attributesWithArguments → adjoins "(" after = false
  | ownership _, after => ∃ token ∈ after.head?, startsType token = true
  | _, _ => True

end Piece

/-! ## Reading them -/

/-- In front of the rest, the tokens are read as a specifier. -/
inductive Specifies (rest : List Token) : List Token → Piece → Prop
  | attributed {token : Token} : token.kind = .attribute →
      (Piece.attributed token.text none).Admits rest →
      Specifies rest [token] (.attributed token.text none)
  | arguments {token opener closer : Token} {inner : List Token} : token.kind = .attribute →
      token.text ∈ attributesWithArguments → opener.is "(" = true → opener.freshLine = false →
      Bracket.round.close (inner ++ [closer]) = .closed inner [] →
      Specifies rest (token :: opener :: inner ++ [closer]) (.attributed token.text (some inner))
  | inoutWord {token : Token} : token.kind ≠ .attribute → token.is "inout" = true →
      Specifies rest [token] .inoutWord
  | ownership {token : Token} : token.kind ≠ .attribute → token.is "inout" = false →
      token.text ∈ ownershipSpecifiers → (Piece.ownership token.text).Admits rest →
      Specifies rest [token] (.ownership token.text)

/-- In front of `after`, the tokens are read as several specifiers. -/
inductive Specified (after : List Token) : List Token → List Piece → Prop
  | nil : Specified after [] []
  | cons {front back : List Token} {piece : Piece} {pieces : List Piece} :
      Specifies (back ++ after) front piece → Specified after back pieces →
      Specified after (front ++ back) (piece :: pieces)

variable {scope : Scope} {tokens rest : List Token}

theorem reads_readAttribute_iff {token : Token} {back : List Token} {text : String} :
    Reads (readAttribute true) scope (token :: back) text rest ↔
      token.text ∉ attributesWithArguments ∧ token.text = text ∧ back = rest ∨
      token.text ∈ attributesWithArguments ∧ ∃ arguments,
        Reads (adjoinedGroup .round) scope back arguments rest ∧
        token.text ++ arguments = text := by
  have hname : (decide (token.text ∉ ["@convention", "@differentiable"]) = true) =
      (token.text ∉ attributesWithArguments) := decide_eq_true_eq
  rw [readAttribute, reads_next?_bind_iff, reads_ite_iff, reads_pure_iff, List.head?_cons,
    Option.map_some, Option.getD_some, Bool.true_and, hname, not_not, reads_bind_iff]
  constructor
  · rintro (hplain | ⟨hmem, arguments, mid, hgroup, hpure⟩)
    · exact .inl hplain
    · obtain ⟨rfl, rfl⟩ := reads_pure_iff.mp hpure
      exact .inr ⟨hmem, arguments, hgroup, rfl⟩
  · rintro (hplain | ⟨hmem, arguments, hgroup, rfl⟩)
    · exact .inl hplain
    · exact .inr ⟨hmem, arguments, _, hgroup, .pure⟩

theorem modifies_eq_true_iff {words : List String} : modifies words tokens = true ↔
    ∃ token rest, tokens = token :: rest ∧ token.text ∈ words ∧
      ∃ next ∈ rest.head?, startsType next = true := by
  rcases tokens with _ | ⟨token, _ | ⟨next, rest⟩⟩ <;> simp [modifies]

theorem Specifies.reads {front : List Token} {piece : Piece} (h : Specifies rest front piece)
    (scope : Scope) : Reads specifier scope (front ++ rest) (.more piece.specifier) rest := by
  refine reads_ahead_bind_iff.mpr ?_
  cases h with
  | @attributed token hkind hadmits =>
    have hread : Reads (readAttribute true) scope (token :: rest) token.text rest := by
      rw [reads_readAttribute_iff]
      by_cases hname : token.text ∈ attributesWithArguments
      · have hgroup : Reads (adjoinedGroup .round) scope rest "" rest :=
          reads_adjoinedGroup_iff.mpr (.inr ⟨hadmits hname, rfl, rfl⟩)
        exact .inr ⟨hname, "", hgroup, String.append_empty⟩
      · exact .inl ⟨hname, rfl, rfl⟩
    refine reads_ite_iff.mpr (.inl ⟨by simp [hkind], hread.bind_iff.mpr ?_⟩)
    exact .pure
  | @arguments token opener closer inner hkind hname hopener hline hclose =>
    obtain ⟨closer', hsplit, hagain⟩ := Bracket.exists_closer_of_closeFrom hclose
    obtain rfl : closer = closer' := by simpa using hsplit
    have hgroup : Reads (adjoinedGroup .round) scope (opener :: (inner ++ [closer] ++ rest))
        ("(" ++ Token.join inner ++ ")") rest := by
      refine reads_adjoinedGroup_iff.mpr (.inl ⟨?_, inner, ?_, rfl⟩)
      · simp [adjoins, Bracket.opener, hopener, hline]
      · rw [List.tail_cons, List.append_assoc]
        exact hagain rest
    have hread := reads_readAttribute_iff.mpr (.inr ⟨hname, _, hgroup, rfl⟩)
    refine reads_ite_iff.mpr (.inl ⟨by simp [hkind], Reads.bind_iff hread |>.mpr ?_⟩)
    exact .pure
  | @inoutWord token hkind hinout =>
    refine reads_ite_iff.mpr (.inr ⟨by simp [hkind], ?_⟩)
    exact (reads_accept_bind_iff_of_is hinout).mpr .pure
  | @ownership token hkind hinout hword hadmits =>
    have hmodifies := modifies_eq_true_iff.mpr ⟨token, rest, rfl, hword, hadmits⟩
    have hstands : stands ["inout"] (token :: rest) = false := by simpa using hinout
    refine reads_ite_iff.mpr (.inr ⟨by simp [hkind], ?_⟩)
    refine (reads_accept_bind_iff_of_not_stands hstands).mpr ?_
    simp [hmodifies, Piece.specifier]

/-- Where no specifier is read. -/
structure StopsSpecifiers (tokens : List Token) : Prop where
  not_attribute : ∀ token ∈ tokens.head?, token.kind ≠ .attribute
  not_inout : stands ["inout"] tokens = false
  not_ownership : modifies ownershipSpecifiers tokens = false

theorem StopsSpecifiers.reads (h : StopsSpecifiers tokens) (scope : Scope) :
    Reads specifier scope tokens .stop tokens := by
  have hkind : ¬ tokens.head?.any (·.kind = .attribute) = true := by
    rw [Option.any_eq_true]
    rintro ⟨token, htoken, hkind⟩
    exact h.not_attribute token htoken (of_decide_eq_true hkind)
  refine reads_ahead_bind_iff.mpr (reads_ite_iff.mpr (.inr ⟨hkind, ?_⟩))
  refine (reads_accept_bind_iff_of_not_stands h.not_inout).mpr ?_
  simp [h.not_ownership]

/-- What a turn of reading specifiers gives. -/
theorem exists_of_reads_specifier {turn : Turn Specifier}
    (h : Reads specifier scope tokens turn rest) :
    (turn = .stop ∧ tokens = rest ∧ StopsSpecifiers tokens) ∨
      ∃ front piece, tokens = front ++ rest ∧ turn = .more piece.specifier ∧
        Specifies rest front piece := by
  rw [specifier, reads_ahead_bind_iff] at h
  rcases reads_ite_iff.mp h with ⟨hattribute, h⟩ | ⟨hattribute, h⟩
  · obtain ⟨token, htoken, hkind⟩ := (Option.any_eq_true _ _).mp hattribute
    obtain ⟨back, rfl⟩ := List.head?_eq_some_iff.mp htoken
    obtain ⟨text, mid, hread, hpure⟩ := reads_bind_iff.mp h
    obtain ⟨rfl, rfl⟩ := reads_pure_iff.mp hpure
    have hkind := of_decide_eq_true hkind
    -- Only some attributes look at the group that their line goes on with.
    rcases reads_readAttribute_iff.mp hread with ⟨hname, rfl, rfl⟩ | ⟨hname, arguments, hgroup, rfl⟩
    · exact .inr ⟨[token], _, rfl, rfl, .attributed hkind fun h ↦ absurd h hname⟩
    · rcases exists_of_reads_adjoinedGroup hgroup with
        ⟨hadjoins, rfl, rfl⟩ | ⟨opener, inner, closer, rfl, hopener, hline, hclose, rfl⟩
      · refine .inr ⟨[token], _, rfl, ?_, .attributed hkind fun _ ↦ hadjoins⟩
        rw [String.append_empty]
        rfl
      · refine .inr ⟨_, _, ?_, rfl, .arguments hkind hname hopener hline hclose⟩
        simp
  · have hkind : ∀ token ∈ tokens.head?, token.kind ≠ .attribute := by
      intro token htoken hkind
      exact hattribute ((Option.any_eq_true _ _).mpr ⟨token, htoken, decide_eq_true hkind⟩)
    obtain ⟨seen, mid, haccept, h⟩ := reads_bind_iff.mp h
    rcases reads_accept_iff.mp haccept with ⟨rfl, token, rfl, htoken⟩ | ⟨rfl, hinout, rfl⟩
    · rw [if_pos rfl] at h
      obtain ⟨rfl, rfl⟩ := reads_pure_iff.mp h
      exact .inr ⟨[token], _, rfl, rfl, .inoutWord (hkind token rfl) htoken⟩
    · rw [if_neg Bool.false_ne_true] at h
      rcases reads_ite_iff.mp h with ⟨hmodifies, h⟩ | ⟨hmodifies, h⟩
      · obtain ⟨token, back, rfl, hword, hnext⟩ := modifies_eq_true_iff.mp hmodifies
        have hpure := reads_next?_bind_iff.mp h
        obtain ⟨rfl, rfl⟩ := reads_pure_iff.mp hpure
        rw [stands_singleton_cons] at hinout
        exact .inr ⟨[token], _, rfl, rfl, .ownership (hkind token rfl) hinout hword hnext⟩
      · obtain ⟨rfl, rfl⟩ := reads_pure_iff.mp h
        rw [Bool.not_eq_true] at hmodifies
        exact .inl ⟨rfl, rfl, hkind, hinout, hmodifies⟩

theorem Specifies.ne_nil {front : List Token} {piece : Piece} (h : Specifies rest front piece) :
    front ≠ [] := by
  cases h <;> simp

variable {after front : List Token} {pieces : List Piece}

theorem Specified.reads (h : Specified after front pieces) (hafter : StopsSpecifiers after)
    (scope : Scope) :
    Reads (repeated specifier) scope (front ++ after) (pieces.map Piece.specifier) after := by
  have hfrom (number : Nat) : Reads (repeatFrom (fun _ ↦ specifier) number) scope (front ++ after)
      (pieces.map Piece.specifier) after := by
    induction h generalizing number with
    | nil => exact (hafter.reads scope).repeatFrom_stop
    | @cons front back piece pieces hpiece _ ih =>
      have hlength : 0 < front.length := List.length_pos_iff.mpr hpiece.ne_nil
      rw [List.append_assoc]
      refine (hpiece.reads scope).repeatFrom_more ?_ (ih (number + 1))
      simp only [List.length_append]
      omega
  exact hfrom 0

/-- Whatever is read as specifiers is made of pieces. -/
theorem exists_specified_of_reads {number : Nat} {specifiers : List Specifier}
    (h : Reads (repeatFrom (fun _ ↦ specifier) number) scope tokens specifiers after) :
    ∃ front pieces, tokens = front ++ after ∧ specifiers = pieces.map Piece.specifier ∧
      Specified after front pieces ∧ StopsSpecifiers after := by
  induction h using Reads.repeatFrom_induction with
  | stop hturn =>
    rcases exists_of_reads_specifier hturn with ⟨-, rfl, hstops⟩ | ⟨_, _, -, hmore, -⟩
    · exact ⟨[], [], rfl, rfl, .nil, hstops⟩
    · cases hmore
  | last hturn =>
    rcases exists_of_reads_specifier hturn with ⟨hstop, -⟩ | ⟨_, _, -, hmore, -⟩
    · cases hstop
    · cases hmore
  | more hturn _ _ ih =>
    rcases exists_of_reads_specifier hturn with ⟨hstop, -⟩ | ⟨front, piece, rfl, hmore, hpiece⟩
    · cases hstop
    obtain rfl := Turn.more.inj hmore
    obtain ⟨back, pieces, rfl, rfl, hpieces, hstops⟩ := ih
    exact ⟨front ++ back, piece :: pieces, (List.append_assoc ..).symm, rfl,
      .cons hpiece hpieces, hstops⟩
  | stuck hturn hstuck =>
    rcases exists_of_reads_specifier hturn with ⟨hstop, -⟩ | ⟨front, piece, rfl, -, hpiece⟩
    · cases hstop
    have hlength : 0 < front.length := List.length_pos_iff.mpr hpiece.ne_nil
    rw [List.length_append] at hstuck
    omega

/-! ## What is known of the pieces -/

theorem Piece.Admits.congr {piece : Piece} {other : List Token} (h : piece.Admits rest)
    (hhead : other.head? = rest.head?) : piece.Admits other := by
  cases piece with
  | attributed name arguments? =>
    cases arguments? with
    | none =>
      intro hname
      rw [adjoins, hhead]
      exact h hname
    | some inner => trivial
  | inoutWord => trivial
  | ownership word =>
    rw [Piece.Admits, hhead]
    exact h

theorem Specifies.congr {piece : Piece} {other : List Token} (h : Specifies rest front piece)
    (hhead : other.head? = rest.head?) : Specifies other front piece := by
  cases h with
  | attributed hkind hadmits => exact .attributed hkind (hadmits.congr hhead)
  | arguments hkind hname hopener hline hclose => exact .arguments hkind hname hopener hline hclose
  | inoutWord hkind hinout => exact .inoutWord hkind hinout
  | ownership hkind hinout hword hadmits =>
    exact .ownership hkind hinout hword (hadmits.congr hhead)

theorem Specified.congr {other : List Token} (h : Specified after front pieces)
    (hhead : other.head? = after.head?) : Specified other front pieces := by
  induction h with
  | nil => exact .nil
  | @cons front back piece pieces hpiece _ ih =>
    refine .cons (hpiece.congr ?_) ih
    cases back with
    | nil => exact hhead
    | cons => rfl

section Sound

variable {whole : List Token} (htame : Tame whole)
  (hspelled : ∀ token ∈ whole, Spelled token.kind token.text.toList)
include hspelled

include htame in
theorem Specifies.sound {piece : Piece} (h : Specifies rest front piece)
    (hpart : front <:+: whole) : piece.Sound := by
  have hfirst {token : Token} {back : List Token} (hfront : front = token :: back) :
      Spelled token.kind token.text.toList :=
    hspelled token (hpart.subset (hfront ▸ List.mem_cons_self))
  cases h with
  | @attributed token hkind _ =>
    have hname := hfirst rfl
    rwa [hkind] at hname
  | @arguments token opener closer inner hkind hname hopener hline hclose =>
    have hspelled' := hfirst rfl
    rw [hkind] at hspelled'
    refine ⟨hspelled', hname, fun token htoken ↦ ?_, ?_⟩
    · exact hspelled token (hpart.subset (by simp [htoken]))
    · exact htame.plain hpart (List.mem_cons_of_mem _ hname) hopener hclose
  | inoutWord => trivial
  | ownership _ _ hword _ => exact hword

omit hspelled in
/-- Attributes and keywords are no types. -/
theorem startsType_eq_false {token : Token} (h : Spelled token.kind token.text.toList)
    (hkind : token.kind ∈ [Kind.attribute, .keyword]) : startsType token = false := by
  have hround : (Kind.punctuation, "(") ∈ closedSymbols := by decide
  have hsquare : (Kind.punctuation, "[") ∈ closedSymbols := by decide
  have hne : token.kind ≠ .punctuation ∧ token.kind ≠ .identifier := by
    constructor <;> intro heq <;> rw [heq] at hkind <;> exact absurd hkind (by decide)
  have hround := h.ne_closedSymbol hround hne.1
  have hsquare := h.ne_closedSymbol hsquare hne.1
  simp [startsType, Token.is, hne.2, hround, hsquare]

/-- What begins with a specifier and looks like a type begins with an ownership specifier. -/
theorem Specifies.ownership_of_startsType {piece : Piece} (h : Specifies rest front piece)
    (hpart : front <:+: whole)
    (hstarts : ∃ token ∈ (front ++ rest).head?, startsType token = true) :
    piece.isOwnership = true := by
  have hfirst {token : Token} {back : List Token} (hfront : front = token :: back) :
      Spelled token.kind token.text.toList :=
    hspelled token (hpart.subset (hfront ▸ List.mem_cons_self))
  obtain ⟨first, hhead, hstarts⟩ := hstarts
  cases h with
  | attributed hkind _ =>
    obtain rfl := Option.some.inj hhead
    have hnone := startsType_eq_false (hfirst rfl) (by simp [hkind])
    exact absurd hstarts (by simp [hnone])
  | arguments hkind _ _ _ _ =>
    obtain rfl := Option.some.inj hhead
    have hnone := startsType_eq_false (hfirst rfl) (by simp [hkind])
    exact absurd hstarts (by simp [hnone])
  | inoutWord hkind hinout =>
    obtain rfl := Option.some.inj hhead
    have hkeyword : Spelled .keyword "inout".toList := by decide +kernel
    have hspelled := hfirst rfl
    rw [text_eq_of_is hinout] at hspelled
    have hnone := startsType_eq_false (hfirst rfl) (by simp [hspelled.kind_eq hkeyword])
    exact absurd hstarts (by simp [hnone])
  | ownership => rfl

theorem Specified.isChain (h : Specified after front pieces) (hpart : front <:+: whole) :
    pieces.IsChain fun piece next ↦ piece.isOwnership → next.isOwnership := by
  induction h with
  | nil => exact .nil
  | @cons front back piece pieces hpiece hpieces ih =>
    have hback := ih ((List.suffix_append front back).isInfix.trans hpart)
    cases hpieces with
    | nil => exact .singleton _
    | @cons front' back' next pieces hnext _ =>
      refine .cons_cons (fun hownership ↦ ?_) hback
      have hpart' : front' <:+: whole := by
        refine List.IsInfix.trans ⟨front, back', ?_⟩ hpart
        rw [List.append_assoc]
      refine hnext.ownership_of_startsType hspelled hpart' ?_
      cases hpiece with
      | ownership _ _ _ hadmits => rwa [← List.append_assoc]
      | _ => cases hownership

include htame in
theorem Specified.sound (h : Specified after front pieces) (hpart : front <:+: whole) :
    ∀ piece ∈ pieces, piece.Sound := by
  induction h with
  | nil => simp
  | @cons front back piece pieces hpiece _ ih =>
    have hfirst := hpiece.sound htame hspelled ((List.prefix_append front back).isInfix.trans hpart)
    have hothers := ih ((List.suffix_append front back).isInfix.trans hpart)
    exact List.forall_mem_cons.mpr ⟨hfirst, hothers⟩

omit hspelled in
include htame in
/-- The last specifier is also read in front of another type, if that begins like the type. -/
theorem Specified.getLast?_admits {next : Token} {later : List Token}
    (h : Specified (next :: later) front pieces) (hpart : front ++ [next] <:+: whole)
    {other : List Token} (hstarts : ∃ token ∈ other.head?, startsType token = true)
    (hround : stands ["("] other = true → next.is "(" = true) :
    ∀ piece ∈ pieces.getLast?, piece.Admits other := by
  induction h with
  | nil => simp
  | @cons front back piece pieces hpiece hpieces ih =>
    cases hpieces with
    | nil =>
      rintro _ ⟨⟩
      cases hpiece with
      | @attributed token _ hadmits =>
        -- Had the parenthesis stood on the line of the attribute, it would have opened arguments.
        intro hname
        rw [Bool.eq_false_iff]
        intro hadjoins
        have hstands : stands ["("] other = true := by
          by_contra hnot
          rw [adjoins_of_not_stands (by simpa using hnot)] at hadjoins
          cases hadjoins
        have hopener := hround hstands
        have hline := htame.adjoined hpart hname hopener
        have hnone := hadmits hname
        simp [adjoins, hopener, hline] at hnone
      | arguments => trivial
      | inoutWord => trivial
      | ownership => exact hstarts
    | cons hnext hpieces =>
      rw [List.append_assoc] at hpart
      exact ih ((List.suffix_append front _).isInfix.trans hpart)

end Sound

/-! ## Moving `inout` behind the others -/

variable {pieces : List Piece}

private theorem isOwnership_of_isChain {piece : Piece}
    (h : (piece :: pieces).IsChain fun piece next ↦ piece.isOwnership → next.isOwnership)
    (hfirst : piece.isOwnership = true) : ∀ other ∈ pieces, other.isOwnership = true := by
  induction pieces generalizing piece with
  | nil => simp
  | cons next pieces ih =>
    obtain ⟨hnext, hchain⟩ := List.isChain_cons_cons.mp h
    exact List.forall_mem_cons.mpr ⟨hnext hfirst, ih hchain (hnext hfirst)⟩

/-- Ownership specifiers and `inout` exclude one another, if they come in order. -/
theorem not_isOwnership_of_inoutWord
    (h : pieces.IsChain fun piece next ↦ piece.isOwnership → next.isOwnership)
    (hordered : ∀ word ∈ ownershipSpecifiers,
      ¬ [Specifier.inoutWord, .written word].Sublist (pieces.map Piece.specifier))
    (hsound : ∀ piece ∈ pieces, piece.Sound) (hinout : .inoutWord ∈ pieces) :
    ∀ piece ∈ pieces, piece.isOwnership = false := by
  induction pieces with
  | nil => simp
  | cons piece pieces ih =>
    have hlater := (List.forall_mem_cons.mp hsound).2
    cases piece with
    | attributed name arguments? =>
      have hinout : .inoutWord ∈ pieces := by simpa using hinout
      have hordered : ∀ word ∈ ownershipSpecifiers,
          ¬ [Specifier.inoutWord, .written word].Sublist (pieces.map Piece.specifier) :=
        fun word hword hsub ↦ hordered word hword (hsub.cons _)
      exact List.forall_mem_cons.mpr ⟨rfl, ih h.of_cons hordered hlater hinout⟩
    | inoutWord =>
      refine List.forall_mem_cons.mpr ⟨rfl, fun other hother ↦ ?_⟩
      cases other with
      | ownership word =>
        have hmem : Specifier.written word ∈ pieces.map Piece.specifier :=
          List.mem_map_of_mem hother
        exact absurd ((List.singleton_sublist.mpr hmem).cons_cons _)
          (hordered word (hlater _ hother))
      | _ => rfl
    | ownership word =>
      have hinout : .inoutWord ∈ pieces := by simpa using hinout
      -- Only other ownership specifiers come after one.
      cases isOwnership_of_isChain h rfl _ hinout

/-- The specifiers in the order in which a type is written. -/
def canonical (pieces : List Piece) : List Piece :=
  pieces.filter (· ≠ .inoutWord) ++ if .inoutWord ∈ pieces then [.inoutWord] else []

theorem mem_of_mem_canonical {piece : Piece} (h : piece ∈ canonical pieces) : piece ∈ pieces := by
  rw [canonical, List.mem_append] at h
  rcases h with h | h
  · exact List.mem_of_mem_filter h
  · split_ifs at h with hinout
    · obtain rfl := List.mem_singleton.mp h
      exact hinout
    · cases h

private theorem written?_specifier (piece : Piece) :
    piece.specifier.written? = if piece = .inoutWord then none else some piece.text := by
  rcases piece with ⟨name, _ | inner⟩ | _ | word <;> rfl

@[simp] theorem specifier_eq_inoutWord_iff {piece : Piece} :
    piece.specifier = .inoutWord ↔ piece = .inoutWord := by
  rcases piece with ⟨name, _ | inner⟩ | _ | word <;> simp [Piece.specifier]

@[simp] theorem inoutWord_mem_canonical {pieces : List Piece} :
    .inoutWord ∈ canonical pieces ↔ .inoutWord ∈ pieces := by
  by_cases h : .inoutWord ∈ pieces <;> simp [canonical, h]

@[simp] theorem contains_inoutWord (pieces : List Piece) :
    (pieces.map Piece.specifier).contains .inoutWord = decide (.inoutWord ∈ pieces) := by
  rw [Bool.eq_iff_iff]
  simp

private theorem filterMap_filter_specifier (pieces : List Piece) :
    (pieces.filter (· ≠ .inoutWord)).map Piece.text =
      (pieces.map Piece.specifier).filterMap Specifier.written? := by
  induction pieces with
  | nil => rfl
  | cons piece pieces ih =>
    rw [List.map_cons, List.filterMap_cons, written?_specifier, ← ih]
    by_cases h : piece = .inoutWord <;> simp [h]

@[simp] theorem filterMap_canonical (pieces : List Piece) :
    ((canonical pieces).map Piece.specifier).filterMap Specifier.written? =
      (pieces.map Piece.specifier).filterMap Specifier.written? := by
  rw [← filterMap_filter_specifier, ← filterMap_filter_specifier, canonical]
  by_cases h : .inoutWord ∈ pieces <;> simp [h]

theorem join_canonical (pieces : List Piece) :
    String.join ((canonical pieces).map (·.text ++ " ")) =
      String.join (((pieces.map Piece.specifier).filterMap Specifier.written?).map (· ++ " ")) ++
        if (pieces.map Piece.specifier).contains .inoutWord then "inout " else "" := by
  rw [← filterMap_filter_specifier, contains_inoutWord, canonical, List.map_append,
    String.join_append, List.map_map]
  by_cases h : .inoutWord ∈ pieces
  · simp [h, Function.comp_def]
    rfl
  · simp [h, Function.comp_def]

/-! ## Restoring them -/

theorem Piece.Sound.spells {piece : Piece} (h : piece.Sound) (tail : List Char) :
    Spells tail (piece.text ++ " ").toList piece.tokens := by
  have hends : EndsWord (" ".toList ++ tail) := .of_cons (by decide +kernel)
  have hblank : Spells tail " ".toList [] := .blank .nil
  rw [String.toList_append]
  rcases piece with ⟨name, _ | inner⟩ | _ | word
  · exact .word h (by decide) hends hblank
  · obtain ⟨hname, -, hspelled, hplain⟩ := h
    have harguments := (Arguments.group hspelled hplain).restores.spells (" ".toList ++ tail) hends
    have hword := Spells.word hname (by decide) (harguments.endsWord hends
      (Arguments.group hspelled hplain).head_endsWord) harguments
    have hspells := hword.append hblank
    rw [List.append_nil] at hspells
    rwa [Piece.text, String.toList_append]
  · exact .word (by decide +kernel) (by decide) hends hblank
  · have hall : ∀ word ∈ ownershipSpecifiers, Spelled .identifier word.toList := by decide +kernel
    exact .word (hall word h) (by decide) hends hblank

theorem spells_pieces {pieces : List Piece} (h : ∀ piece ∈ pieces, piece.Sound) (tail : List Char) :
    Spells tail (String.join (pieces.map (·.text ++ " "))).toList
      (pieces.flatMap Piece.tokens) := by
  induction pieces with
  | nil => exact .nil
  | cons piece pieces ih =>
    obtain ⟨hfirst, hothers⟩ := List.forall_mem_cons.mp h
    rw [List.map_cons, String.join_cons, String.toList_append, List.flatMap_cons]
    exact (hfirst.spells _).append (ih hothers)

theorem Piece.Sound.specifies {piece : Piece} (h : piece.Sound) (hrest : piece.Admits rest) :
    Specifies rest piece.tokens piece.unbroken := by
  rcases piece with ⟨name, _ | inner⟩ | _ | word
  · exact .attributed rfl hrest
  · obtain ⟨hname, hmem, hspelled, hplain⟩ := h
    have hclose : Bracket.round.close (inner.map Token.unbroken ++ [inLine .punctuation ")"]) =
        .closed (inner.map Token.unbroken) [] :=
      Bracket.close_append_closer (hplain.role_eq_neutral hspelled) rfl
    exact @Specifies.arguments rest (inLine .attribute name) (inLine .punctuation "(")
      (inLine .punctuation ")") (inner.map Token.unbroken) rfl hmem rfl rfl hclose
  · exact .inoutWord (by decide) rfl
  · have hall : ∀ word ∈ ownershipSpecifiers, word ≠ "inout" := by decide
    refine @Specifies.ownership rest (inLine .identifier word) (by simp) ?_ h hrest
    simp [hall word h]

@[simp]
theorem Piece.specifier_unbroken (piece : Piece) : piece.unbroken.specifier = piece.specifier := by
  rcases piece with ⟨name, _ | inner⟩ | _ | word <;> simp [unbroken, specifier]

theorem Piece.Sound.exists_tokens_eq_cons {piece : Piece} (h : piece.Sound) :
    ∃ first back, piece.tokens = first :: back ∧ first.text ∉ ["(", ")", ":"] ∧
      (piece.isOwnership = true → startsType first = true) ∧
      (first.kind = .identifier → back = []) := by
  have hname {name : String} (hspelled : Spelled .attribute name.toList) :
      name ∉ ["(", ")", ":"] := by
    have hmarks : ∀ mark ∈ ["(", ")", ":"], (Kind.punctuation, mark) ∈ closedSymbols := by decide
    exact fun hmem ↦ hspelled.ne_closedSymbol (hmarks name hmem) (by decide) rfl
  rcases piece with ⟨name, _ | inner⟩ | _ | word
  · exact ⟨_, _, rfl, hname h, by rintro ⟨⟩, by rintro ⟨⟩⟩
  · exact ⟨_, _, rfl, hname h.1, by rintro ⟨⟩, by rintro ⟨⟩⟩
  · exact ⟨_, _, rfl, by decide, by rintro ⟨⟩, by rintro ⟨⟩⟩
  · have hall : ∀ word ∈ ownershipSpecifiers, word ∉ ["(", ")", ":"] := by decide
    exact ⟨_, _, rfl, hall word h, fun _ ↦ rfl, fun _ ↦ rfl⟩

private theorem isChain_of_not_isOwnership (h : ∀ piece ∈ pieces, piece.isOwnership = false) :
    pieces.IsChain fun piece next ↦ piece.isOwnership → next.isOwnership := by
  induction pieces with
  | nil => exact .nil
  | cons piece pieces ih =>
    obtain ⟨hfirst, hothers⟩ := List.forall_mem_cons.mp h
    cases pieces with
    | nil => exact .singleton _
    | cons next pieces => exact .cons_cons (by simp [hfirst]) (ih hothers)

/-- Specifiers are read one after the other where the last one is read. -/
theorem specified_of_isChain (hsound : ∀ piece ∈ pieces, piece.Sound)
    (hchain : pieces.IsChain fun piece next ↦ piece.isOwnership → next.isOwnership)
    (hlast : ∀ piece ∈ pieces.getLast?, piece.Admits after) :
    Specified after (pieces.flatMap Piece.tokens) (pieces.map Piece.unbroken) := by
  induction pieces with
  | nil => exact .nil
  | cons piece pieces ih =>
    obtain ⟨hfirst, hothers⟩ := List.forall_mem_cons.mp hsound
    rcases pieces with _ | ⟨next, pieces⟩
    · exact .cons (hfirst.specifies (hlast piece rfl)) .nil
    have hback := ih hothers hchain.of_cons hlast
    obtain ⟨first, back, htokens, htext, hstarts, -⟩ :=
      (hothers next List.mem_cons_self).exists_tokens_eq_cons
    -- The next piece begins with a word, which is no argument of the one before.
    have hround : first.text ≠ "(" := fun heq ↦ htext (heq ▸ List.mem_cons_self)
    have hadmits : piece.Admits ((next :: pieces).flatMap Piece.tokens ++ after) := by
      rw [List.flatMap_cons, htokens]
      rcases piece with ⟨name, _ | inner⟩ | _ | word
      · intro _
        simp [adjoins, Token.is, hround]
      · trivial
      · trivial
      · have hownership := (List.isChain_cons_cons.mp hchain).1 rfl
        exact ⟨first, rfl, hstarts hownership⟩
    exact .cons (hfirst.specifies hadmits) hback

/-- In front of a type that begins like the one they were read with, the specifiers are read again
in their canonical order. -/
theorem Specified.canonical {whole : List Token} (htame : Tame whole)
    (hspelled : ∀ token ∈ whole, Spelled token.kind token.text.toList) {next : Token}
    {later front : List Token} (h : Specified (next :: later) front pieces)
    (hstops : StopsSpecifiers (next :: later)) (hpart : front ++ [next] <:+: whole)
    {other : List Token} (hstarts : ∃ token ∈ other.head?, startsType token = true)
    (hround : stands ["("] other = true → next.is "(" = true) :
    Specified other ((SwiftType.canonical pieces).flatMap Piece.tokens)
      ((SwiftType.canonical pieces).map Piece.unbroken) := by
  have hpart' := (List.prefix_append front [next]).isInfix.trans hpart
  have hsound := h.sound htame hspelled hpart'
  have hchain := h.isChain hspelled hpart'
  by_cases hinout : .inoutWord ∈ pieces
  · -- No ownership specifier is there, and nothing else minds what it is followed by.
    have hstops' : StopsSpecifiers [next] := ⟨hstops.not_attribute, hstops.not_inout, rfl⟩
    have hnext : Specified [next] front pieces := h.congr rfl
    have hread := hnext.reads hstops' ⟨⟨1, false⟩, {}⟩
    have hnone := not_isOwnership_of_inoutWord hchain (htame.ordered hpart hread) hsound hinout
    refine specified_of_isChain (fun piece hpiece ↦ hsound piece (mem_of_mem_canonical hpiece))
      (isChain_of_not_isOwnership fun piece hpiece ↦ hnone piece (mem_of_mem_canonical hpiece)) ?_
    rw [SwiftType.canonical, if_pos hinout, List.getLast?_concat]
    rintro _ ⟨⟩
    trivial
  · have hself : SwiftType.canonical pieces = pieces := by
      rw [SwiftType.canonical, if_neg hinout, List.append_nil, List.filter_eq_self]
      rintro piece hpiece
      simp only [ne_eq, decide_not, Bool.not_eq_true', decide_eq_false_iff_not]
      rintro rfl
      exact hinout hpiece
    rw [hself]
    exact specified_of_isChain hsound hchain (h.getLast?_admits htame hpart hstarts hround)

end SwiftType

end TestDouble
