import TestDouble.Proofs.Protocol.Compositional
import TestDouble.Proofs.Protocol.Lead
import TestDouble.Proofs.SwiftType.Seam

/-!
# Members across a seam

A member at the end of a body is read as the same member where the body goes on, if it goes on with
what ends a member. Modifiers are an exception, but a member does not end with one.
-/

namespace TestDouble

open Reader Token
open SwiftType (Avoids continuations avoids_of_is avoids_of_reads_expect)

variable {seam : Seam} {scope : Scope} {tokens rest : List Token}

/-! ## Modifiers -/

namespace Lead

/-- The words for modifiers. -/
def words : List String :=
  accessLevels ++ idleModifiers ++ staticModifiers

private theorem reads_turn_brace {turn : Turn Lead}
    (h : Reads Lead.turn scope [seam.brace] turn rest) : rest = [seam.brace] := by
  have hwords : "\x7d" ∉ words := by decide
  have hstop : Reads Lead.turn scope [seam.brace] .stop [seam.brace] :=
    reads_turn_stop (by rw [seam.brace_kind]; decide) (by rwa [text_eq_of_is seam.brace_is])
  exact (h.value_unique hstop).2

theorem setter_extend (tokens : List Token) :
    (stands ["("] (seam.extend tokens) && stands ["set"] (seam.extend tokens).tail) =
      (stands ["("] tokens && stands ["set"] tokens.tail) := by
  rw [Seam.stands_extend (by decide)]
  rcases hopens : stands ["("] tokens with _ | _
  · rfl
  · obtain ⟨opener, back, rfl, his⟩ := stands_singleton_eq_true_iff.mp hopens
    rw [Seam.extend_cons (Seam.ne_brace_of_is (by decide) his), List.tail_cons,
      Seam.stands_extend (by decide), List.tail_cons]

/-- The brace does not follow a modifier, or else it is not read in the same way. -/
theorem holds_turn : seam.Holds (fun _ rest ↦ rest ≠ [seam.brace]) turn turn scope tokens := by
  have hall : ∀ text ∈ words, text ≠ "\x7b" := by decide
  have hlevel {token : Token} (h : token.text ∈ words) : token.is "\x7b" = false := by
    simp [Token.is, hall _ h]
  refine .of_not (p := tokens = [seam.brace]) (fun hbrace ↦ .ahead_bind ?_) ?_
  · rcases tokens with _ | ⟨token, tokens⟩
    · exact .pure
    rw [Seam.extend_cons hbrace]
    refine .ite Iff.rfl (fun hattribute ↦ ?_) fun _ ↦ .ite Iff.rfl (fun haccess ↦ ?_) fun _ ↦
      .ite (by rw [Seam.stands_extend (by decide)]) (fun hword ↦ ?_) fun _ ↦ .pure
    · exact .bind_pure ((holds_readAttribute hattribute false).mono fun _ _ _ _ ↦ trivial)
    · have hmem : token.text ∈ words := by simp [words, haccess]
      refine .skip_bind (fun _ ↦ hlevel hmem) (.ite (by rw [setter_extend]) (fun hsetter ↦ ?_)
        fun _ ↦ .pure)
      exact .bind (.group (Bool.and_eq_true_iff.mp hsetter).1) fun _ _ ↦ .pure
    · have hmem : token.text ∈ words := by
        rcases hword with hidle | ⟨hstatic, -⟩
        · simp [words, hidle]
        · simp [words, hstatic]
      have htaken : seam.Holds (fun _ rest ↦ rest ≠ [seam.brace])
          (skip >>= fun _ ↦ pure (Turn.more (modifier token.text)))
          (skip >>= fun _ ↦ pure (Turn.more (modifier token.text))) scope (token :: tokens) :=
        .skip_bind (fun _ ↦ hlevel hmem) .pure
      -- The token in place of the brace may be a name, and `class` is left alone in front of a
      -- name.
      rcases seam.eq_brace_or_head?_extend tokens with rfl | hhead
      · refine .of_not_follow (.ite Iff.rfl (fun _ ↦ .pure) fun _ ↦ htaken) fun turn rest hread ↦ ?_
        have hname : (List.head? [seam.brace]).any (·.kind = .identifier) = false := by
          simp [seam.brace_kind]
        rw [hname, Bool.and_false, if_neg Bool.false_ne_true] at hread
        have hpure := reads_skip_bind_iff.mp hread
        exact fun hne ↦ hne (reads_pure_iff.mp hpure).2.symm
      · exact .ite (by rw [hhead]) (fun _ ↦ .pure) fun _ ↦ htaken
  · rintro rfl - turn rest hread
    exact ⟨reads_turn_brace hread, fun h ↦ h rfl⟩

theorem holds_read : seam.Holds (fun _ rest ↦ rest ≠ [seam.brace]) read read scope tokens := by
  refine .repeated (fun _ ↦ holds_turn) (fun _ _ _ h ↦ h) ?_
  rintro number - mid leads rest - hsuffix hbrace hne rfl
  have hlonger := SwiftType.one_lt_length hbrace hne
  have hle := hsuffix.length_le
  rw [List.length_singleton] at hle
  omega

end Lead

/-! ## Parameters -/

/-- A mark does not go on with a type, so it matters only what is read without the mark. -/
theorem avoids_of_reads_mark {α : Type} {text : String} {next : Bool → Reader α} {a : α}
    (h : Reads (accept text >>= next) scope tokens a rest) (htext : text ∉ continuations)
    (hnext : Reads (next false) scope tokens a rest → Avoids continuations tokens) :
    Avoids continuations tokens := by
  obtain ⟨accepted, mid, haccept, hread⟩ := reads_bind_iff.mp h
  rcases reads_accept_iff.mp haccept with ⟨-, token, rfl, his⟩ | ⟨rfl, -, rfl⟩
  · exact avoids_of_is his htext
  · exact hnext hread

section Members

variable (htold : SwiftType.Guarded seam)

namespace Parameter

/-- What is read after the names of the parameter at a position, the second of which may be
missing. -/
def readAfterNames (position : Nat) (first : Token) (second? : Option Token) :
    Reader Parameter := do
  let written := (second?.getD first).text
  let label? := second?.map fun _ ↦ first.text
  let named := written ≠ wildcard
  let name := if named then written else s!"param{position}"
  let label? := if named then label? else label? <|> some wildcard
  let _ ← expect ":" s!"after parameter '{name}'"
  let type ← SwiftType.read
  let isVariadic ← accept "..."
  if ← accept "=" then
    let _ ← collectUntil (stands [",", ")"])
  return { name, type, label?, isVariadic }

include htold in
theorem holds_readAfterNames {position : Nat} {first : Token} {second? : Option Token} :
    seam.Holds (fun _ ↦ Avoids continuations) (readAfterNames position first second?)
      (readAfterNames position first second?) scope tokens := by
  refine .bind (.expect (by decide)) fun _ mid ↦ .bind_of (SwiftType.holds_read htold)
    (fun type mid ↦ ?_) ?_
  · have hvariadic : seam.Holds (fun _ ↦ Avoids continuations) (accept "...") (accept "...") scope
        mid := (Seam.Holds.accept (by decide) (by decide)).mono fun _ _ _ _ ↦ trivial
    refine .bind_of hvariadic
      (fun isVariadic mid ↦ .bind (.accept (by decide) (by decide)) fun seen mid ↦ ?_) ?_
    · exact .ite Iff.rfl (fun _ ↦ .bind (.collectUntil (Seam.stands_extend (by decide)))
        fun _ _ ↦ .pure) fun _ ↦ .pure
    · intro isVariadic mid parameter rest _ hread _ _ hrest
      refine avoids_of_reads_mark hread (by decide) fun hread ↦ ?_
      obtain ⟨-, rfl⟩ := reads_pure_iff.mp hread
      exact hrest
  · intro type mid parameter rest _ hread _ _ hrest
    refine avoids_of_reads_mark hread (by decide) fun hread ↦
      avoids_of_reads_mark hread (by decide) fun hread ↦ ?_
    obtain ⟨-, rfl⟩ := reads_pure_iff.mp hread
    exact hrest

include htold in
theorem holds_read (position : Nat) : seam.Holds (fun _ ↦ Avoids continuations) (read position)
    (read position) scope tokens := by
  refine .bind .expectName fun first mid ↦ .ahead_bind ?_
  rcases seam.eq_brace_or_head?_extend mid with rfl | hhead
  · have hname : (List.head? [seam.brace]).filter Token.isName = none := by
      simp [Token.isName, seam.brace_kind]
    refine .of_not_reads fun parameter rest hread ↦ ?_
    rw [hname] at hread
    obtain ⟨colon, back, hcolon, -⟩ := reads_bind_iff.mp hread
    obtain ⟨heq, his⟩ := reads_expect_iff.mp hcolon
    exact Seam.ne_brace_of_is (by decide) his heq.symm
  · rw [hhead]
    rcases hname : mid.head?.filter Token.isName with _ | second
    · exact holds_readAfterNames htold
    · obtain ⟨hsecond, his⟩ := Option.filter_eq_some_iff.mp hname
      obtain ⟨back, rfl⟩ := List.head?_eq_some_iff.mp hsecond
      have hlevel (hspelled : Spelled second.kind second.text.toList) :
          second.is "\x7b" = false :=
        not_brace_of_name hspelled his
      exact .skip_bind hlevel (holds_readAfterNames htold)

/-- What is read after the parameters. -/
def closeClause (parameters : List Parameter) : Reader (List Parameter) := do
  let tokens ← ahead
  unless stands [")"] tokens do
    fail (.parameterClauseCut (tokens.head?.map (·.text)))
  skip
  return parameters

theorem readClause_eq : readClause = (do
    let opener ← expect "(" "to open parameter clause"
    closeClause (← numbered (clauseTurn opener))) :=
  rfl

include htold in
/-- The last parameter is followed by the parenthesis. -/
theorem holds_clauseTurn (opener : Token) (number : Nat) : seam.Holds
    (fun result rest ↦ ∀ parameter, result = .last parameter → stands [")"] rest = true)
    (clauseTurn opener number) (clauseTurn opener number) scope tokens := by
  refine .ahead_bind (.ite (by rw [Seam.stands_extend (by decide)]) (fun _ ↦ .pure) fun _ ↦ ?_)
  refine .ite (by rw [Seam.isEmpty_extend]) (fun _ ↦ .fail_bind) fun _ ↦ ?_
  refine .bind_of (holds_read htold (number + 1)) (fun parameter mid ↦ ?_) ?_
  · exact .bind (.accept (by decide) (by decide)) fun _ _ ↦
      .ite Iff.rfl (fun _ ↦ .pure) fun _ ↦ .pure
  · intro parameter mid result rest _ hread _ _ hrest
    refine avoids_of_reads_mark hread (by decide) fun hread ↦ ?_
    obtain ⟨rfl, rfl⟩ := reads_pure_iff.mp hread
    obtain ⟨closer, back, rfl, his⟩ := stands_singleton_eq_true_iff.mp (hrest _ rfl)
    exact avoids_of_is his (by decide)

include htold in
theorem holds_readClause : seam.Holds Seam.anywhere readClause readClause scope tokens := by
  rw [readClause_eq]
  have hturns (opener : Token) (mid : List Token) : seam.Holds
      (fun _ rest ↦ stands [")"] rest = true) (numbered (clauseTurn opener))
      (numbered (clauseTurn opener)) scope mid := by
    refine .repeatFrom (fun number _ ↦ holds_clauseTurn htold opener number) ?_ ?_
    · exact fun _ _ _ hrest _ _ ↦ hrest
    · rintro _ _ _ _ _ _ _ _ _ _ ⟨⟩
  refine .bind (.expect (by decide)) fun opener mid ↦ .bind_of (hturns opener mid)
    (fun parameters mid ↦ .ahead_bind ?_) ?_
  · refine .ite (by rw [Seam.stands_extend (by decide)]) (fun hstands ↦ ?_) fun _ ↦ .fail_bind
    obtain ⟨closer, back, rfl, his⟩ := stands_singleton_eq_true_iff.mp hstands
    exact .skip_bind (fun _ ↦ is_eq_false_of_is his (by decide)) .pure
  · intro parameters mid parameters' rest _ hread _ _ _
    rcases reads_ite_iff.mp (reads_ahead_bind_iff.mp hread) with ⟨hstands, -⟩ | ⟨-, hfail⟩
    · exact hstands
    · exact absurd hfail not_reads_fail_bind

end Parameter

/-! ## Members -/

theorem Method.holds_effect : seam.Holds Seam.anywhere effect effect scope tokens := by
  have hwords : ∀ text ∈ ["async", "throws", "rethrows"], text ∈ sought ∧ text ≠ "\x7b" := by decide
  refine .ahead_bind ?_
  rcases tokens with _ | ⟨token, tokens⟩
  · exact .pure
  by_cases hbrace : token :: tokens = [seam.brace]
  · obtain ⟨hnot, hnot'⟩ := seam.any_is_eq_false fun text htext ↦ (hwords text htext).1
    rw [hbrace, Seam.extend_brace]
    simp only [hnot, hnot', Bool.false_eq_true, if_false]
    exact .pure
  rw [Seam.extend_cons hbrace]
  refine .ite Iff.rfl (fun heffect ↦ ?_) fun _ ↦ .pure
  obtain ⟨text, htext, his⟩ := List.any_eq_true.mp heffect
  exact .skip_bind (fun _ ↦ is_eq_false_of_is his (hwords text htext).2)
    (.bind_pure ((holds_adjoinedGroup .round (by decide)).mono fun _ _ _ _ ↦ trivial))

/-- Where the body goes on, a member ends and no body of it begins. -/
structure Seam.EndsMember (seam : Seam) : Prop where
  ends : endsMember (seam.next :: seam.more) = true
  not_opener : seam.next.is "\x7b" = false

variable (hends : seam.EndsMember)

include hends in
theorem stands_opener_extend (tokens : List Token) :
    stands ["\x7b"] (seam.extend tokens) = stands ["\x7b"] tokens := by
  rcases seam.eq_brace_or_head?_extend tokens with rfl | hhead
  · rw [Seam.extend_brace, stands_singleton_cons, stands_singleton_cons, hends.not_opener,
      is_eq_false_of_is seam.brace_is (by decide)]
  · rw [stands, stands, hhead]

include hends in
theorem endsMember_extend (tokens : List Token) :
    endsMember (seam.extend tokens) = endsMember tokens := by
  rcases tokens with _ | ⟨token, tokens⟩
  · rfl
  · by_cases hbrace : token :: tokens = [seam.brace]
    · rw [hbrace, Seam.extend_brace, hends.ends]
      simp [endsMember, seam.brace_is]
    · rw [Seam.extend_cons hbrace]
      rfl

namespace Method

/-- What is read at the end of a method. -/
def close (draft : Draft) : Reader Method := do
  if ← sees "\x7b" then fail .methodBody
  let tokens ← ahead
  unless endsMember tokens do
    fail (.afterSignature ((tokens.head?.map (·.text)).getD ""))
  match draft.check with
  | .error cause => refuse cause
  | .ok method =>
    tell (.readMethod method.selector)
    return method

/-- What is read after the result of a method. -/
def readAfterResult (draft : Draft) : Reader Method := do
  let whereClause ← if ← accept "where" then Token.join <$> collectUntil endsMember else pure ""
  close { draft with whereClause }

/-- What is read after the effects of a method. -/
def readAfterEffects (draft : Draft) : Reader Method := do
  let result? ← if ← accept "->" then some <$> SwiftType.read else pure none
  readAfterResult { draft with result? }

theorem readAfterName_eq (name : String) (line : Nat) (isStatic : Bool) :
    readAfterName name line isStatic = (do
      let genericClause ← adjoinedGroup .angle
      unless ← sees "(" do fail .noParameterClause
      let parameters ← Parameter.readClause
      let effects ← repeated effect
      readAfterEffects
        { name, parameters, genericClause, effects, isStatic, line? := some line }) :=
  rfl

theorem reads_close {draft : Draft} {method : Method}
    (h : Reads (close draft) scope tokens method rest) : tokens = rest := by
  rcases reads_ite_iff.mp (reads_sees_bind_iff.mp h) with ⟨-, hread⟩ | ⟨-, hread⟩
  · exact absurd hread not_reads_fail_bind
  rcases reads_ite_iff.mp (reads_ahead_bind_iff.mp hread) with ⟨-, hread⟩ | ⟨-, hread⟩
  · split at hread
    · exact absurd hread not_reads_refuse
    · have hpure := reads_tell_bind_iff.mp hread
      exact (reads_pure_iff.mp hpure).2
  · exact absurd hread not_reads_fail_bind

include hends in
theorem holds_close {draft : Draft} :
    seam.Holds Seam.anywhere (close draft) (close draft) scope tokens := by
  refine .sees_bind_of_stands (stands_opener_extend hends tokens) (.ite Iff.rfl
    (fun _ ↦ .fail_bind) fun _ ↦ .ahead_bind ?_)
  refine .ite (by rw [endsMember_extend hends]) (fun _ ↦ ?_) fun _ ↦ .fail_bind
  split
  · exact .refuse
  · exact .tell_bind .pure

include hends in
theorem holds_readAfterResult {draft : Draft} :
    seam.Holds Seam.anywhere (readAfterResult draft) (readAfterResult draft) scope tokens := by
  refine .bind (.accept (by decide) (by decide)) fun seen mid ↦ .ite Iff.rfl (fun _ ↦ ?_) fun _ ↦ ?_
  · exact .bind (.map (.collectUntil (endsMember_extend hends))) fun _ _ ↦ holds_close hends
  · exact .bind .pure fun _ _ ↦ holds_close hends

include hends htold in
theorem holds_readAfterEffects {draft : Draft} : seam.Holds (fun _ ↦ Avoids continuations)
    (readAfterEffects draft) (readAfterEffects draft) scope tokens := by
  have hafter {draft : Draft} {mid : List Token} : seam.Holds (fun _ ↦ Avoids continuations)
      (readAfterResult draft) (readAfterResult draft) scope mid :=
    (holds_readAfterResult hends).mono fun _ _ _ _ ↦ trivial
  refine .bind (.accept (by decide) (by decide)) fun seen mid ↦ .ite Iff.rfl (fun _ ↦ ?_) fun _ ↦
    .bind .pure fun _ _ ↦ hafter
  have htype : seam.Holds (fun _ ↦ Avoids continuations) (some <$> SwiftType.read)
      (some <$> SwiftType.read) scope mid := .map (SwiftType.holds_read htold)
  refine htype.bind_of (fun _ _ ↦ hafter) ?_
  intro result? mid method rest _ hread _ _ hrest
  refine avoids_of_reads_mark hread (by decide) fun hread ↦ ?_
  obtain rfl := reads_close (reads_pure_bind_iff.mp hread)
  exact hrest

include hends htold in
theorem holds_readAfterName {name : String} {line : Nat} {isStatic : Bool} : seam.Holds
    (fun _ ↦ Avoids continuations) (readAfterName name line isStatic)
    (readAfterName name line isStatic) scope tokens := by
  rw [readAfterName_eq]
  refine .bind (holds_adjoinedGroup .angle (by decide)) fun genericClause mid ↦
    .sees_bind (by decide) (.ite Iff.rfl (fun _ ↦ ?_) fun _ ↦ .fail_bind)
  refine .bind (Parameter.holds_readClause htold) fun parameters mid ↦ .bind ?_ fun effects mid ↦
    holds_readAfterEffects htold hends
  exact .repeated (fun _ ↦ holds_effect) (fun _ _ _ _ ↦ trivial) fun _ _ _ _ _ _ _ _ _ ↦ trivial

include hends htold in
theorem holds_read (isStatic : Bool) : seam.Holds (fun _ ↦ Avoids continuations) (read isStatic)
    (read isStatic) scope tokens := by
  refine .bind (.expect (by decide)) fun keyword mid ↦ .ahead_bind ?_
  rcases mid with _ | ⟨name, mid⟩
  · exact .fail
  by_cases hbrace : name :: mid = [seam.brace]
  · have hname : seam.brace.isName = false := by simp [Token.isName, seam.brace_kind]
    obtain ⟨rfl, rfl⟩ := List.cons.inj hbrace
    refine .of_not_reads fun method rest hread ↦ ?_
    simp only [List.head?_cons, hname, Bool.false_eq_true, if_false] at hread
    exact not_reads_fail_bind hread
  rw [Seam.extend_cons hbrace]
  refine .ite Iff.rfl (fun hname ↦ ?_) fun _ ↦ .fail_bind
  exact .skip_bind (not_brace_of_name · hname) (.inMember fun _ ↦ holds_readAfterName htold hends)

end Method

namespace Property

include hends htold in
theorem holds_readAfterName {name : String} {line : Nat} {isStatic : Bool} : seam.Holds
    Seam.anywhere (readAfterName name line isStatic) (readAfterName name line isStatic) scope
    tokens := by
  refine .bind (.expect (by decide)) fun _ mid ↦ .bind_of (SwiftType.holds_read htold)
    (fun type mid ↦ .sees_bind_of_stands (stands_opener_extend hends mid) (.ite Iff.rfl
      (fun hopens ↦ ?_) fun _ ↦ .fail_bind)) ?_
  · exact .bind (.group hopens) fun inner mid ↦ .ite Iff.rfl (fun _ ↦ .pure) fun _ ↦ .fail_bind
  · intro type mid property rest _ hread _ _ _
    rcases reads_ite_iff.mp (reads_sees_bind_iff.mp hread) with ⟨hopens, -⟩ | ⟨-, hfail⟩
    · obtain ⟨opener, back, rfl, his⟩ := stands_singleton_eq_true_iff.mp hopens
      exact avoids_of_is his (by decide)
    · exact absurd hfail not_reads_fail_bind

include hends htold in
theorem holds_read (isStatic : Bool) :
    seam.Holds Seam.anywhere (read isStatic) (read isStatic) scope tokens :=
  .bind (.expect (by decide)) fun _ _ ↦ .bind .expectName fun _ _ ↦
    .inMember fun _ ↦ holds_readAfterName htold hends

end Property

namespace AssociatedType

/-- What is read after the constraints of an associated type. -/
def readAfterConstraints (name : String) (constraints : List SwiftType) :
    Reader AssociatedType := do
  if ← accept "=" then
    let _ ← SwiftType.read
  if ← accept "where" then
    let _ ← collectUntil endsMember
  return ⟨name, String.intercalate " & " (constraints.map SwiftType.declared)⟩

private theorem read_eq : read = (do
    let _ ← expect "associatedtype" "to start associated type"
    let name ← expectName "for associated type"
    let constraints ← if ← accept ":" then separated SwiftType.read else pure []
    readAfterConstraints name.text constraints) :=
  rfl

/-- The last type of an associated type is followed by a clause of its own or by nothing. -/
theorem avoids_of_reads_clause {α : Type} {clause : Reader α} {type type' : AssociatedType}
    (hrest : Avoids continuations rest) (h : Reads (do
      if ← accept "where" then
        let _ ← clause
      return type) scope tokens type' rest) : Avoids continuations tokens := by
  refine avoids_of_reads_mark h (by decide) fun hread ↦ ?_
  obtain ⟨-, rfl⟩ := reads_pure_iff.mp hread
  exact hrest

include hends htold in
theorem holds_readAfterConstraints {name : String} {constraints : List SwiftType} : seam.Holds
    (fun _ ↦ Avoids continuations) (readAfterConstraints name constraints)
    (readAfterConstraints name constraints) scope tokens := by
  have hclause {mid : List Token} {type : AssociatedType} : seam.Holds
      (fun _ ↦ Avoids continuations)
      (do if ← accept "where" then
            let _ ← collectUntil endsMember
          return type)
      (do if ← accept "where" then
            let _ ← collectUntil endsMember
          return type) scope mid :=
    .bind (.accept (by decide) (by decide)) fun _ _ ↦ .ite Iff.rfl
      (fun _ ↦ .bind (.collectUntil (endsMember_extend hends)) fun _ _ ↦ .pure) fun _ ↦ .pure
  refine .bind (.accept (by decide) (by decide)) fun seen mid ↦ .ite Iff.rfl (fun _ ↦ ?_)
    fun _ ↦ hclause
  refine .bind_of (SwiftType.holds_read htold) (fun _ _ ↦ hclause) ?_
  exact fun _ _ _ _ _ hread _ _ hrest ↦ avoids_of_reads_clause hrest hread

include hends htold in
theorem holds_read : seam.Holds (fun _ ↦ Avoids continuations) read read scope tokens := by
  rw [read_eq]
  refine .bind (.expect (by decide)) fun _ mid ↦ .bind .expectName fun name mid ↦
    .bind (.accept (by decide) (by decide)) fun seen mid ↦ .ite Iff.rfl (fun _ ↦ ?_)
    fun _ ↦ .bind .pure fun _ _ ↦ holds_readAfterConstraints htold hends
  refine .bind_of (.separated (fun _ ↦ SwiftType.holds_read htold) ?_)
    (fun _ _ ↦ holds_readAfterConstraints htold hends) ?_
  · exact fun token tokens his ↦ avoids_of_is his (by decide)
  · intro constraints mid type rest _ hread _ _ hrest
    exact avoids_of_reads_mark hread (by decide) (avoids_of_reads_clause hrest)

end AssociatedType

namespace Member

/-- What is read after the attributes and modifiers of a member. -/
def readAfterLeads (protocol : String) (leads : List Lead) : Reader Member := do
  let isStatic := (leads.filterMap Lead.modifier?).any (· ∈ staticModifiers)
  match (← ahead).head? with
  | none => fail (.inBody none)
  | some token =>
    if token.is "func" then return .method (← Method.read isStatic)
    else if token.is "var" then return .property (← Property.read isStatic)
    else if token.is "associatedtype" then return .associatedType (← AssociatedType.read)
    else if token.text ∈ skippedMembers then
      tell (.skippedMember token.text protocol token.line)
      skip
      let _ ← collectUntil endsMember
      return .nothing
    else fail (.inBody (some token.text))

theorem read_eq (protocol : String) : read protocol = Lead.read >>= readAfterLeads protocol :=
  rfl

variable {protocol : String} {leads : List Lead} {member : Member}

/-- A member begins with its keyword. -/
theorem text_mem_of_reads {token : Token}
    (h : Reads (readAfterLeads protocol leads) scope (token :: tokens) member rest) :
    token.text ∈ memberWords := by
  have h := reads_ahead_bind_iff.mp h
  simp only [List.head?_cons] at h
  rcases reads_ite_iff.mp h with ⟨his, -⟩ | ⟨-, h⟩
  · rw [text_eq_of_is his]
    decide
  rcases reads_ite_iff.mp h with ⟨his, -⟩ | ⟨-, h⟩
  · rw [text_eq_of_is his]
    decide
  rcases reads_ite_iff.mp h with ⟨his, -⟩ | ⟨-, h⟩
  · rw [text_eq_of_is his]
    decide
  rcases reads_ite_iff.mp h with ⟨hskipped, -⟩ | ⟨-, h⟩
  · exact List.mem_append_right _ hskipped
  · exact absurd h not_reads_fail

private theorem not_reads_brace :
    ¬ Reads (readAfterLeads protocol leads) scope [seam.brace] member rest := by
  intro h
  have hmem := text_mem_of_reads h
  rw [text_eq_of_is seam.brace_is] at hmem
  exact absurd hmem (by decide)

include hends htold in
theorem holds_readAfterLeads : seam.Holds (fun _ ↦ Avoids continuations)
    (readAfterLeads protocol leads) (readAfterLeads protocol leads) scope tokens := by
  by_cases hbrace : tokens = [seam.brace]
  · rw [hbrace]
    exact .of_not_reads fun _ _ ↦ not_reads_brace
  refine .ahead_bind ?_
  rcases tokens with _ | ⟨token, tokens⟩
  · exact .fail
  rw [Seam.extend_cons hbrace]
  refine .ite Iff.rfl (fun _ ↦ ?_) fun _ ↦ .ite Iff.rfl (fun _ ↦ ?_) fun _ ↦ .ite Iff.rfl
    (fun _ ↦ ?_) fun _ ↦ .ite Iff.rfl (fun hskipped ↦ ?_) fun _ ↦ .fail
  · exact .bind_pure (Method.holds_read htold hends _)
  · exact .bind_pure ((Property.holds_read htold hends _).mono fun _ _ _ _ ↦ trivial)
  · exact .bind_pure (AssociatedType.holds_read htold hends)
  · have hall : ∀ text ∈ skippedMembers, text ≠ "\x7b" := by decide
    have hlevel : token.is "\x7b" = false := by simp [Token.is, hall _ hskipped]
    exact .tell_bind (.skip_bind (fun _ ↦ hlevel)
      (.bind (.collectUntil (endsMember_extend hends)) fun _ _ ↦ .pure))

include hends htold in
/-- A member is read across a seam at which it ends. -/
theorem holds_read : seam.Holds (fun _ ↦ Avoids continuations) (read protocol) (read protocol) scope
    tokens := by
  rw [read_eq]
  refine .bind_of Lead.holds_read (fun leads mid ↦ holds_readAfterLeads htold hends) ?_
  rintro leads mid member rest - hread - - - rfl
  exact not_reads_brace hread

end Member

/-! ## Bodies -/

/-- What can stand first in the rest of a body. -/
def Resumes (token : Token) : Prop :=
  token.is "\x7d" = true ∨ token.is ";" = true ∨ token.kind = .attribute ∨
    token.text ∈ Lead.words ++ memberWords

theorem Resumes.endsMember {token : Token} (h : Resumes token) (hfresh : token.freshLine = true) :
    endsMember (token :: tokens) = true := by
  rcases h with h | h | h | h
  · simp [TestDouble.endsMember, h]
  · simp [TestDouble.endsMember, h]
  · simp [TestDouble.endsMember, h, hfresh]
  · simp only [Lead.words, List.mem_append] at h
    rcases h with ((h | h) | h) | h <;> simp [TestDouble.endsMember, h, hfresh]

theorem Resumes.text_not_mem {token : Token} (h : Resumes token)
    (hspelled : Spelled token.kind token.text.toList) : token.text ∉ "\x7b" :: sought := by
  have hwords : ∀ text ∈ "\x7d" :: ";" :: (Lead.words ++ memberWords),
      text ∉ "\x7b" :: sought := by decide
  rcases h with h | h | h | h
  · exact hwords _ (by simp [text_eq_of_is h])
  · exact hwords _ (by simp [text_eq_of_is h])
  · intro hmem
    have hkinds : ∀ text ∈ "\x7b" :: sought,
        ∃ kind ∈ [Kind.punctuation, .operator, .identifier, .keyword],
          Spelled kind text.toList := by
      decide +kernel
    obtain ⟨kind, hkind, hspelled'⟩ := hkinds _ hmem
    rw [← hspelled.kind_eq hspelled', h] at hkind
    exact absurd hkind (by decide)
  · exact hwords _ (List.mem_cons_of_mem _ (List.mem_cons_of_mem _ h))

theorem Resumes.not_mem_sought {token : Token} (h : Resumes token)
    (hspelled : Spelled token.kind token.text.toList) : token.text ∉ sought :=
  List.not_mem_of_not_mem_cons (h.text_not_mem hspelled)

theorem Resumes.not_opener {token : Token} (h : Resumes token)
    (hspelled : Spelled token.kind token.text.toList) : token.is "\x7b" = false := by
  have hne := List.ne_of_not_mem_cons (h.text_not_mem hspelled)
  simp [Token.is, hne]

private theorem Member.resumes_of_reads {protocol : String} {token : Token} {member : Member}
    (h : Reads (read protocol) scope (token :: tokens) member rest) : Resumes token := by
  by_cases hattribute : token.kind = .attribute
  · exact .inr (.inr (.inl hattribute))
  by_cases hwords : token.text ∈ Lead.words
  · exact .inr (.inr (.inr (List.mem_append_left _ hwords)))
  obtain ⟨leads, mid, hleads, hread⟩ := reads_bind_iff.mp h
  have hstop : Reads Lead.turn scope (token :: tokens) .stop (token :: tokens) :=
    reads_turn_stop hattribute hwords
  obtain ⟨-, rfl⟩ := hleads.value_unique hstop.repeatFrom_stop
  exact .inr (.inr (.inr (List.mem_append_right _ (text_mem_of_reads hread))))

namespace Protocol

variable {name : String} {line : Nat} {turn : Turn Member}

theorem reads_memberTurn_cases (h : Reads (memberTurn name) scope tokens turn rest) :
    ∃ member, turn = .more member ∧
      (stands [";"] tokens = true ∨ Reads (Member.read name) scope tokens member rest) := by
  obtain ⟨accepted, mid, haccept, hread⟩ := reads_bind_iff.mp h
  rcases reads_accept_iff.mp haccept with ⟨rfl, token, rfl, his⟩ | ⟨rfl, -, rfl⟩
  · obtain ⟨rfl, rfl⟩ := reads_pure_iff.mp hread
    exact ⟨.nothing, rfl, .inl (by simpa using his)⟩
  · obtain ⟨member, back, hmember, hpure⟩ := reads_bind_iff.mp hread
    obtain ⟨rfl, rfl⟩ := reads_pure_iff.mp hpure
    exact ⟨member, rfl, .inr hmember⟩

theorem reads_bodyTurn_iff : Reads (bodyTurn name line) scope tokens turn rest ↔
    (stands ["\x7d"] tokens = true ∧ turn = .stop ∧ tokens = rest) ∨
    (stands ["\x7d"] tokens = false ∧ tokens ≠ [] ∧
      Reads (memberTurn name) scope tokens turn rest) := by
  have hrest : Reads (if tokens.isEmpty = true then
        (fail (.openBody name) line : Reader PUnit) >>= fun _ ↦ memberTurn name
      else memberTurn name) scope tokens turn rest ↔
      tokens ≠ [] ∧ Reads (memberTurn name) scope tokens turn rest := by
    rw [reads_ite_iff, List.isEmpty_iff]
    constructor
    · rintro (⟨-, hfail⟩ | hread)
      · exact absurd hfail not_reads_fail_bind
      · exact hread
    · exact .inr
  refine reads_ahead_bind_iff.trans (reads_ite_iff.trans ?_)
  rw [Bool.not_eq_true, ← hrest, reads_pure_iff, eq_comm (a := turn)]

private theorem resumes_of_reads_turn (h : Reads (bodyTurn name line) scope tokens turn rest) :
    ∃ token back, tokens = token :: back ∧ Resumes token := by
  rcases reads_bodyTurn_iff.mp h with ⟨hstands, -⟩ | ⟨-, hne, hread⟩
  · obtain ⟨token, back, rfl, his⟩ := stands_singleton_eq_true_iff.mp hstands
    exact ⟨token, back, rfl, .inl his⟩
  · obtain ⟨token, back, rfl⟩ := List.exists_cons_of_ne_nil hne
    refine ⟨token, back, rfl, ?_⟩
    obtain ⟨member, -, hsemicolon | hmember⟩ := reads_memberTurn_cases hread
    · exact .inr (.inl (stands_singleton_cons.symm.trans hsemicolon))
    · exact Member.resumes_of_reads hmember

include hends htold in
/-- A turn is read across a seam behind a member. -/
theorem holds_bodyTurn : seam.Holds (fun turn rest ↦ turn ≠ .stop ∧ Avoids continuations rest)
    (bodyTurn name line) (bodyTurn name line) scope tokens := by
  refine .of_not (p := tokens = [seam.brace]) (fun hbrace ↦ .ahead_bind ?_) ?_
  · have hhead := (seam.eq_brace_or_head?_extend tokens).resolve_left hbrace
    refine .ite (by rw [stands, stands, hhead]) (fun _ ↦ .pure) fun _ ↦
      .ite (by rw [Seam.isEmpty_extend]) (fun _ ↦ .fail_bind) fun _ ↦ ?_
    refine .accept_bind_of_stands (by rw [stands, stands, hhead]) (by decide) ?_ fun _ ↦ ?_
    · exact fun _ _ _ _ ↦ .pure
    · exact .bind_pure ((Member.holds_read htold hends).mono fun _ _ _ h ↦ h.2)
  · rintro rfl - turn rest hread
    rcases reads_bodyTurn_iff.mp hread with ⟨-, rfl, rfl⟩ | ⟨hnot, -⟩
    · exact ⟨rfl, fun h ↦ h.1 rfl⟩
    · simp [seam.brace_is] at hnot

omit hends htold in
theorem resumes_of_reads_body {number : Nat} {members : List Member}
    (h : Reads (repeatFrom (fun _ ↦ bodyTurn name line) number) scope tokens members rest) :
    ∃ token back, tokens = token :: back ∧ Resumes token := by
  rcases reads_repeatFrom_iff.mp h with ⟨hturn, -⟩ | ⟨_, hturn, -⟩ | ⟨_, _, _, hturn, -⟩ |
    ⟨_, hturn, -⟩
  all_goals exact resumes_of_reads_turn hturn

/-- A body is level up to the brace at its end. -/
theorem levels_of_reads_body {number : Nat} {members : List Member}
    (hspelled : ∀ token ∈ tokens, Spelled token.kind token.text.toList)
    (h : Reads (repeatFrom (fun _ ↦ bodyTurn name line) number) scope tokens members rest) :
    ∃ taken, tokens = taken ++ rest ∧ Levels taken := by
  -- There is nothing to read across here, and any seam will do.
  let brace : Token := { kind := .punctuation, text := "\x7d", line := 0, freshLine := true }
  let seam : Seam := ⟨brace, brace, [], fun _ ↦ False, rfl, rfl, rfl, by decide⟩
  have hbody : seam.Holds (fun _ _ ↦ False) (repeatFrom (fun _ ↦ bodyTurn name line) number)
      (repeatFrom (fun _ ↦ bodyTurn name line) number) scope tokens := by
    have htold : SwiftType.Guarded seam := fun _ _ h ↦ h.elim
    refine .repeatFrom (fun _ _ ↦ holds_bodyTurn htold ⟨rfl, rfl⟩) ?_ ?_
    · exact fun _ _ _ h ↦ h.elim
    · exact fun _ _ _ _ _ _ _ _ h ↦ h.elim
  obtain ⟨taken, htokens, hlevels, -⟩ := hbody hspelled h
  exact ⟨taken, htokens, hlevels⟩

/-- The line of a protocol matters for faults only. -/
theorem reads_readBody_of_line {line' : Nat} {members : List Member}
    (h : Reads (readBody name line) scope tokens members rest) :
    Reads (readBody name line') scope tokens members rest :=
  h.repeatFrom_congr fun _ _ _ _ hturn ↦ reads_bodyTurn_iff.mpr (reads_bodyTurn_iff.mp hturn)

include hends htold in
/-- A body with further members is read as the members of the shorter body and the further ones. -/
theorem reads_body_extend {number : Nat} {members others : List Member} {scope' : Scope}
    (hspelled : ∀ token ∈ tokens, Spelled token.kind token.text.toList)
    (hread :
      Reads (repeatFrom (fun _ ↦ bodyTurn name line) number) scope tokens members [seam.brace])
    (htells : Tells seam.told (repeatFrom (fun _ ↦ bodyTurn name line) number) scope tokens)
    (hothers : Reads (readBody name line) scope' (seam.next :: seam.more) others rest) :
    Reads (repeatFrom (fun _ ↦ bodyTurn name line) number) scope' (seam.extend tokens)
      (members ++ others) rest := by
  induction hread using Reads.repeatFrom_induction with
  | @stop _ number hturn =>
    rcases reads_bodyTurn_iff.mp hturn with ⟨-, -, rfl⟩ | ⟨-, -, hmember⟩
    · rw [Seam.extend_brace, List.nil_append, repeatFrom_const _ number 0]
      exact hothers
    · obtain ⟨member, hstop, -⟩ := reads_memberTurn_cases hmember
      cases hstop
  | last hturn =>
    rcases reads_bodyTurn_iff.mp hturn with ⟨-, hlast, -⟩ | ⟨-, -, hmember⟩
    · cases hlast
    · obtain ⟨member, hlast, -⟩ := reads_memberTurn_cases hmember
      cases hlast
  | @more _ _ _ mid _ hturn hlt hitems ih =>
    obtain ⟨taken, rfl, -, hextend⟩ := holds_bodyTurn htold hends hspelled hturn
    have hmid : ∀ token ∈ mid, Spelled token.kind token.text.toList := fun token htoken ↦
      hspelled token (List.mem_append_right taken htoken)
    obtain ⟨back, hback, -⟩ := levels_of_reads_body hmid hitems
    have hsuffix : [seam.brace] <:+ mid := ⟨back, hback.symm⟩
    -- The next member or the brace follows, and with neither of them the member goes on.
    have havoids : Avoids continuations mid := by
      obtain ⟨first, later, rfl, hfirst⟩ := resumes_of_reads_body hitems
      have hall : ∀ text ∈ continuations, text ∈ sought := by decide
      refine .of_cons fun hmem ↦ ?_
      exact hfirst.not_mem_sought (hmid first List.mem_cons_self) (hall _ hmem)
    obtain ⟨htells, htells'⟩ := htells.of_repeatFrom hturn hlt
    have hturn' := hextend hsuffix ⟨by simp, havoids⟩ htells scope'
    rw [Seam.extend_append taken hsuffix] at hturn' ⊢
    refine .repeatFrom_more ?_ ?_ (ih hmid htells')
    · exact hturn'
    · simp only [List.length_append] at hlt ⊢
      omega
  | stuck hturn hstuck =>
    obtain ⟨taken, rfl, -⟩ := holds_bodyTurn htold hends hspelled hturn
    rw [List.length_append] at hstuck
    obtain rfl : taken = [] := List.eq_nil_of_length_eq_zero (by omega)
    rcases reads_bodyTurn_iff.mp hturn with ⟨-, hmore, -⟩ | ⟨hnot, -⟩
    · cases hmore
    · simp [seam.brace_is] at hnot

end Protocol

end Members

end TestDouble
