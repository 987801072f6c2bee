import TestDouble.Proofs.Protocol.Compositional
import TestDouble.Proofs.Reader.Forward
import TestDouble.Proofs.SwiftType.Depth
import TestDouble.Proofs.SwiftType.Seam

/-!
# Reading makes progress

Seen from outside, reading moves a cursor over a list of tokens. Whatever is asked for at the
cursor, in whatever order and with whatever faults, the cursor only moves forward, and it stops at
the end of the list. The end is reached no sooner than all tokens are taken, and yet reading comes
to an end everywhere: each turn of each repetition in the grammar takes a token or is the last one,
and each type inside another begins behind a token of the outer one.
-/

namespace TestDouble

open Reader SwiftType

/-! ## Operations at a cursor -/

/-- What can be asked for where a cursor stands. -/
inductive Operation where
  /-- The token that is so many places further on. -/
  | peek (offset : Nat)
  | advance
  /-- Whether one of the texts stands there. -/
  | compare (texts : List String)
  | accept (text : String)
  | expect (text context : String)
  | expectName (context : String)
  | group (bracket : Bracket)
  | attributed (beforeType : Bool)
  | type

namespace Operation

inductive Answer where
  /-- A token, or none at the end. -/
  | token (token? : Option Token)
  | decision (holds : Bool)
  | tokens (inner : List Token)
  | text (text : String)
  | type (type : SwiftType)

def read : Operation → Reader Answer
  | peek offset => return .token (← ahead)[offset]?
  | advance => return .token (← next?)
  | compare texts => return .decision (stands texts (← ahead))
  | accept text => return .token (← accept? text)
  | expect text context => return .token (← Reader.expect text context)
  | expectName context => return .token (← Reader.expectName context)
  | group bracket => return .tokens (← Reader.group bracket)
  | attributed beforeType => return .text (← readAttribute beforeType)
  | type => return .type (← SwiftType.read)

/-- The next token is not as it was asked for. -/
def Declines : Operation → Except Fault Answer → Prop
  | accept _, .ok (.token none) => True
  | expect _ _, .error _ | expectName _, .error _ => True
  | _, _ => False

/-- The operation has taken what it was asked for, and that is never nothing. -/
def Takes : Operation → Except Fault Answer → Prop
  | group _, .ok _ | type, .ok _ => True
  | _, _ => False

theorem forward_read (operation : Operation) : Forward operation.read := by
  have h := forward_compositional.and_recedes
  cases operation with
  | peek offset => exact (h.bind h.ahead fun _ ↦ h.pure _).1
  | advance => exact (h.bind h.next? fun _ ↦ h.pure _).1
  | compare texts => exact (h.bind h.ahead fun _ ↦ h.pure _).1
  | accept text =>
    exact (h.bind (h.bind (h.sees text) fun _ ↦ h.ite h.next? (h.pure _)) fun _ ↦ h.pure _).1
  | expect text context => exact (h.bind (h.expect text context) fun _ ↦ h.pure _).1
  | expectName context => exact (h.bind (h.expectName context) fun _ ↦ h.pure _).1
  | group bracket => exact (h.bind (h.group bracket) fun _ ↦ h.pure _).1
  | attributed beforeType => exact (h.bind (h.readAttribute beforeType) fun _ ↦ h.pure _).1
  | type => exact (h.bind h.swiftType fun _ ↦ h.pure _).1

/-- What was not as asked for is still there. -/
theorem rest_eq_of_declines {operation : Operation} {scope : Scope} {tokens : List Token}
    (h : operation.Declines (operation.read scope tokens).result) :
    (operation.read scope tokens).rest = tokens := by
  cases operation with
  | accept text =>
    rcases hstands : stands [text] tokens with _ | _
    · simp [read, bind, accept?, sees, ahead, pure, hstands]
    · cases tokens with
      | nil => cases hstands
      | cons token tokens =>
        simp [Declines, read, bind, accept?, sees, ahead, pure, hstands, next?] at h
  | expect text context =>
    cases tokens with
    | nil => rfl
    | cons token tokens =>
      by_cases his : token.is text = true <;>
        simp_all [Declines, read, bind, Reader.expect, fail, pure]
  | expectName context =>
    cases tokens with
    | nil => rfl
    | cons token tokens =>
      by_cases his : token.isName = true <;>
        simp_all [Declines, read, bind, Reader.expectName, fail, pure]
  | _ => exact h.elim

/-- What was taken is no longer there. -/
theorem length_lt_of_takes {operation : Operation} {scope : Scope} {tokens : List Token}
    (h : operation.Takes (operation.read scope tokens).result) :
    (operation.read scope tokens).rest.length < tokens.length := by
  rcases hresult : (operation.read scope tokens).result with fault | answer
  · rw [hresult] at h
    cases operation <;> exact h.elim
  · have hread : Reads operation.read scope tokens answer (operation.read scope tokens).rest :=
      ⟨hresult, rfl⟩
    rw [hresult] at h
    cases operation with
    | group bracket =>
      obtain ⟨inner, mid, hgroup, hpure⟩ := reads_bind_iff.mp hread
      rw [← (reads_pure_iff.mp hpure).2]
      exact takes_group hgroup
    | type =>
      obtain ⟨type, mid, htype, hpure⟩ := reads_bind_iff.mp hread
      rw [← (reads_pure_iff.mp hpure).2]
      exact length_lt_of_reads_within (reads_read_iff.mp htype)
    | _ => exact h.elim

/-! ## Positions -/

variable (scope : Scope) (whole : List Token)

/-- The position where the operation leaves a cursor that stands at the given one. -/
def leave (operation : Operation) (position : Nat) : Nat :=
  whole.length - (operation.read scope (whole.drop position)).rest.length

/-- The positions of the cursor, from the given one on, for operations one after the other. After a
fault the cursor goes on from where that left it. -/
def positions (position : Nat) : List Operation → List Nat
  | [] => [position]
  | operation :: operations =>
    position :: positions (operation.leave scope whole position) operations

variable {scope whole} {position : Nat}

/-- A cursor is described by its position. -/
theorem rest_eq_drop_leave (operation : Operation) :
    (operation.read scope (whole.drop position)).rest =
      whole.drop (operation.leave scope whole position) :=
  List.suffix_iff_eq_drop.mp
    ((operation.forward_read scope _).trans (List.drop_suffix position whole))

private theorem leave_le (operation : Operation) :
    operation.leave scope whole position ≤ whole.length :=
  Nat.sub_le _ _

private theorem le_leave (operation : Operation) (h : position ≤ whole.length) :
    position ≤ operation.leave scope whole position := by
  have hle := (operation.forward_read scope (whole.drop position)).length_le
  rw [List.length_drop] at hle
  rw [leave]
  omega

/-- One operation moves the cursor forward, and so do all of them. -/
theorem pairwise_positions (h : position ≤ whole.length) (operations : List Operation) :
    (positions scope whole position operations).Pairwise (· ≤ ·) ∧
      ∀ later ∈ positions scope whole position operations, position ≤ later ∧
        later ≤ whole.length := by
  induction operations generalizing position with
  | nil => simp [positions, h]
  | cons operation operations ih =>
    have hle : position ≤ operation.leave scope whole position := le_leave operation h
    have hbound : operation.leave scope whole position ≤ whole.length := leave_le operation
    obtain ⟨hpairwise, hbetween⟩ := ih hbound
    have hlater : ∀ later ∈ positions scope whole (operation.leave scope whole position) operations,
        position ≤ later ∧ later ≤ whole.length := fun later hmem ↦
      ⟨Nat.le_trans hle (hbetween later hmem).1, (hbetween later hmem).2⟩
    rw [positions, List.pairwise_cons, List.forall_mem_cons]
    exact ⟨⟨fun later hmem ↦ (hlater later hmem).1, hpairwise⟩, ⟨Nat.le_refl _, h⟩, hlater⟩

variable (scope whole) in
/-- What holds of a cursor over tokens, whose last position is the one behind all of them. -/
structure MovesForward : Prop where
  positions : ∀ position ≤ whole.length, ∀ operations,
    (positions scope whole position operations).Pairwise (· ≤ ·) ∧
      ∀ later ∈ positions scope whole position operations, later ≤ whole.length
  rest : ∀ position ≤ whole.length, ∀ operation, (read operation scope (whole.drop position)).rest =
    whole.drop (operation.leave scope whole position)
  /-- There is something to see wherever one looks, if it is only the end. -/
  peek : ∀ position ≤ whole.length, ∀ offset, ∃ token?,
    (whole.map some ++ [none])[min (position + offset) whole.length]? = some token? ∧
      (read (peek offset) scope (whole.drop position)).result = .ok (.token token?)
  declines : ∀ position ≤ whole.length, ∀ operation,
    Declines operation (read operation scope (whole.drop position)).result →
      operation.leave scope whole position = position
  takes : ∀ position ≤ whole.length, ∀ operation,
    Takes operation (read operation scope (whole.drop position)).result →
      position < operation.leave scope whole position

theorem movesForward (scope : Scope) (whole : List Token) : MovesForward scope whole where
  positions position h operations :=
    have ⟨hpairwise, hbounds⟩ := pairwise_positions h operations
    ⟨hpairwise, fun later hmem ↦ (hbounds later hmem).2⟩
  rest position _ operation := rest_eq_drop_leave operation
  peek position h offset := by
    refine ⟨(whole.drop position)[offset]?, ?_, rfl⟩
    rw [List.getElem?_drop]
    rcases Nat.lt_or_ge (position + offset) whole.length with hlt | hge
    · rw [Nat.min_eq_left (Nat.le_of_lt hlt), List.getElem?_append_left (by simpa using hlt),
        List.getElem?_map, List.getElem?_eq_getElem hlt, Option.map_some]
    · rw [Nat.min_eq_right hge, List.getElem?_append_right (by simp),
        List.getElem?_eq_none hge]
      simp
  declines position h operation hdeclines := by
    rw [leave, rest_eq_of_declines hdeclines, List.length_drop]
    omega
  takes position h operation htakes := by
    have hlt := length_lt_of_takes htakes
    rw [List.length_drop] at hlt
    rw [leave]
    omega

end Operation

/-! ## Repetitions of the grammar -/

/-- The turns of the repetitions in the grammar, each of which may know its number. -/
inductive GrammarTurn : ∀ {α : Type}, (Nat → Reader (Turn α)) → Prop
  | specifier : GrammarTurn fun _ ↦ SwiftType.specifier
  | genericArgument : GrammarTurn fun _ ↦ commaTurn SwiftType.read
  | element (opener : Token) : GrammarTurn fun _ ↦ elementTurn SwiftType.read opener
  | suffix : GrammarTurn fun _ ↦ SwiftType.suffix SwiftType.read
  | functionEffect : GrammarTurn fun _ ↦ SwiftType.functionEffect
  | part : GrammarTurn fun _ ↦ partTurn SwiftType.read
  | lead : GrammarTurn fun _ ↦ Lead.turn
  | inherited : GrammarTurn fun _ ↦ commaTurn Protocol.readEntry
  | member (name : String) (line : Nat) : GrammarTurn fun _ ↦ Protocol.bodyTurn name line
  | parameter (opener : Token) : GrammarTurn (Parameter.clauseTurn opener)
  | effect : GrammarTurn fun _ ↦ Method.effect
  /-- What is skipped, and what is kept as text or left out. -/
  | collected (stop : List Token → Bool) : GrammarTurn fun _ ↦ collectTurn stop

theorem GrammarTurn.advances {α : Type} {turn : Nat → Reader (Turn α)} (h : GrammarTurn turn)
    (number : Nat) : Advances (turn number) := by
  have hr := recedes_receding
  cases h with
  | specifier => exact hr.advances_specifier
  | genericArgument => exact (hr.commaTurn hr.swiftType).2
  | element opener => exact (hr.elementTurn hr.swiftType opener).2
  | suffix => exact hr.advances_suffix hr.swiftType
  | functionEffect => exact hr.advances_functionEffect
  | part => exact (hr.partTurn hr.swiftType).2
  | lead => exact hr.leadTurn.2
  | inherited => exact (hr.commaTurn hr.entry).2
  | member name line => exact (hr.bodyTurn name line).2
  | parameter opener => exact (hr.clauseTurn opener number).2
  | effect => exact hr.advances_effect
  | collected stop => exact (hr.collectTurn stop).2

/-- A type is read as by the rules, nested more deeply than there are tokens, whatever reader
stands for the types inside the innermost rule. -/
theorem SwiftType.iterate_annotated_eq_read (inner : Reader SwiftType) {scope : Scope}
    {tokens : List Token} {depth : Nat} (h : tokens.length < depth) :
    annotated^[depth] inner scope tokens = SwiftType.read scope tokens := by
  induction depth generalizing tokens with
  | zero => exact absurd h (Nat.not_lt_zero _)
  | succ depth ih =>
    rw [Function.iterate_succ_apply', read_eq_annotated]
    refine (annotated_congr (fun mid hmid ↦ (ih ?_).symm) recedes_receding.swiftType
      (Nat.le_refl _)).symm
    omega

/-- The cursor only moves forward, and reading comes to an end. A turn of a repetition in the
grammar takes a token or asks for no other, so a repetition ends within as many turns as there are
tokens; rules for types call each other no more deeply than that; and so the reader for protocols
ends, inside the tokens of the protocol. -/
theorem reading_makes_progress :
    (∀ scope whole, Operation.MovesForward scope whole) ∧
    (∀ (α : Type) (turn : Nat → Reader (Turn α)), GrammarTurn turn → ∀ number,
      Advances (turn number) ∧ ∀ others count scope tokens, tokens.length < count →
        unroll turn others count number scope tokens = repeatFrom turn number scope tokens) ∧
    (∀ inner scope tokens depth, tokens.length < depth →
      annotated^[depth] inner scope tokens = SwiftType.read scope tokens) ∧
    ∀ excerpt : Excerpt, excerpt.read.rest <:+ excerpt.items := by
  refine ⟨Operation.movesForward, fun α turn hturn number ↦ ⟨hturn.advances number, ?_⟩, ?_, ?_⟩
  · exact fun others count scope tokens hlt ↦ unroll_eq_repeatFrom hturn.advances others hlt number
  · exact fun inner scope tokens depth ↦ iterate_annotated_eq_read inner
  · exact fun excerpt ↦ forward_compositional.declaration excerpt.line _ _

end TestDouble
