import TestDouble.Proofs.FieldName.Attempts
import TestDouble.Proofs.Protocol.Alike
import TestDouble.Proofs.Protocol.Seam
import TestDouble.Proofs.Reader.Keeps
import TestDouble.Proofs.Reader.Lawful

/-!
# Parameters without a name

A parameter without a name is recorded under a name that is made of its position. Such names differ
from each other, but they live among the written ones, and nothing keeps a clause from writing one
of them. So a clause whose labels and written names do not repeat is still refused if it writes what
it also invents, and for nothing else.

What is written cannot be told from the parameters, since an invented name looks like a written one
afterwards. The readers here keep what stands in front of each colon and are otherwise those of
methods, up to the check that comes last.
-/

namespace TestDouble

open Reader

/-! ## Headings -/

namespace Parameter

/-- What stands in front of a parameter's colon. A single name is both its label and its name. -/
structure Heading where
  label : String
  name : String
  deriving DecidableEq, Repr

/-- The name under which the argument is kept: the written one, or one for the position. -/
def Heading.recorded (heading : Heading) (position : Nat) : String :=
  if heading.name ≠ wildcard then heading.name else s!"param{position}"

/-- Reads the names in front of a colon, the second of which may be missing. -/
def readNames : Reader (Token × Option Token) := do
  let first ← expectName "for parameter"
  let second? := (← ahead).head?.filter Token.isName
  if second?.isSome then skip
  return (first, second?)

/-- Reads a parameter together with its heading. -/
def readHeaded (position : Nat) : Reader (Heading × Parameter) := do
  let (first, second?) ← readNames
  let parameter ← readAfterNames position first second?
  return (⟨first.text, (second?.getD first).text⟩, parameter)

private theorem read_eq_map_readHeaded (position : Nat) :
    Parameter.read position = Prod.snd <$> readHeaded position := by
  have hread : Parameter.read position = (do
      let first ← expectName "for parameter"
      let second? := (← ahead).head?.filter Token.isName
      if second?.isSome then skip
      readAfterNames position first second?) := rfl
  simp only [hread, readHeaded, readNames, map_eq_pure_bind, bind_assoc, pure_bind, bind_pure,
    ite_bind]

/-- A heading gives its parameter a label and a name. -/
theorem label_name_of_reads_readAfterNames {scope : Scope} {tokens rest : List Token}
    {position : Nat} {first : Token} {second? : Option Token} {parameter : Parameter}
    (h : Reads (readAfterNames position first second?) scope tokens parameter rest) :
    parameter.label = first.text ∧
      parameter.name =
        Heading.recorded ⟨first.text, (second?.getD first).text⟩ position := by
  have hnames : ∃ type isVariadic, parameter = {
      name := Heading.recorded ⟨first.text, (second?.getD first).text⟩ position
      type
      label? :=
        if (second?.getD first).text ≠ wildcard then second?.map fun _ ↦ first.text
        else (second?.map fun _ ↦ first.text) <|> some wildcard
      isVariadic } := by
    obtain ⟨colon, mid, -, h⟩ := reads_bind_iff.mp h
    obtain ⟨type, mid, -, h⟩ := reads_bind_iff.mp h
    obtain ⟨isVariadic, mid, -, h⟩ := reads_bind_iff.mp h
    obtain ⟨hasDefault, mid, -, h⟩ := reads_bind_iff.mp h
    refine ⟨type, isVariadic, ?_⟩
    rcases reads_ite_iff.mp h with ⟨-, h⟩ | ⟨-, h⟩
    · obtain ⟨_, _, -, h⟩ := reads_bind_iff.mp h
      exact (reads_pure_iff.mp h).1.symm
    · exact (reads_pure_iff.mp h).1.symm
  obtain ⟨type, isVariadic, rfl⟩ := hnames
  refine ⟨?_, rfl⟩
  rcases second? with _ | second
  · by_cases hwritten : first.text = wildcard <;> simp [label, Heading.recorded, hwritten]
  · by_cases hwritten : second.text = wildcard <;> simp [label, hwritten]

private theorem label_name_of_reads_readHeaded {scope : Scope} {tokens rest : List Token}
    {position : Nat} {heading : Heading} {parameter : Parameter}
    (h : Reads (readHeaded position) scope tokens (heading, parameter) rest) :
    parameter.label = heading.label ∧ parameter.name = heading.recorded position := by
  obtain ⟨⟨first, second?⟩, mid, -, h⟩ := reads_bind_iff.mp h
  obtain ⟨parameter, mid, hparameter, hpure⟩ := reads_bind_iff.mp h
  obtain ⟨⟨rfl, rfl⟩, -⟩ := reads_pure_iff.mp hpure
  exact label_name_of_reads_readAfterNames hparameter

/-- One turn of reading a parameter clause, with headings. -/
def headedTurn (opener : Token) (number : Nat) : Reader (Turn (Heading × Parameter)) := do
  let tokens ← ahead
  if stands [")"] tokens then return .stop
  if tokens.isEmpty then fail .openParameterClause opener.line
  let headed ← readHeaded (number + 1)
  if ← accept "," then return .more headed else return .last headed

/-- Reads a parameter clause together with its headings. -/
def readHeadedClause : Reader (List (Heading × Parameter)) := do
  let opener ← expect "(" "to open parameter clause"
  let headed ← numbered (headedTurn opener)
  let _ ← closeClause (headed.map Prod.snd)
  return headed

private theorem readClause_eq_map_readHeadedClause :
    readClause = List.map Prod.snd <$> readHeadedClause := by
  have hturn (opener : Token) (number : Nat) :
      clauseTurn opener number = Turn.map Prod.snd <$> headedTurn opener number := by
    simp only [clauseTurn, headedTurn, read_eq_map_readHeaded, map_eq_pure_bind, bind_assoc,
      pure_bind, ite_bind, Turn.map]
  have hturns (opener : Token) :
      numbered (clauseTurn opener) = List.map Prod.snd <$> numbered (headedTurn opener) := by
    rw [← numbered_map, ← funext (hturn opener)]
  simp only [readClause_eq, readHeadedClause, hturns, map_eq_pure_bind, bind_assoc, pure_bind,
    closeClause, ite_bind]

section

variable {scope : Scope} {tokens rest : List Token} {headed : List (Heading × Parameter)}

/-- What the headings of a clause say about its parameters, of which the first has a number. -/
def Named (number : Nat) (headed : List (Heading × Parameter)) : Prop :=
  headed.map (·.2.label) = headed.map (·.1.label) ∧
    headed.map (·.2.name) =
      (headed.map Prod.fst).mapIdx fun index heading ↦ heading.recorded (number + index + 1)

theorem Named.cons {number : Nat} {heading : Heading} {parameter : Parameter}
    (h : parameter.label = heading.label ∧ parameter.name = heading.recorded (number + 1))
    (hnamed : Named (number + 1) headed) : Named number ((heading, parameter) :: headed) := by
  refine ⟨congrArg₂ List.cons h.1 hnamed.1, ?_⟩
  rw [List.map_cons, List.map_cons, List.mapIdx_cons, hnamed.2, h.2]
  simp only [Nat.add_zero, Nat.add_right_comm, Nat.add_assoc]

private theorem label_name_of_reads_headedTurn {opener : Token} {number : Nat}
    {turn : Turn (Heading × Parameter)}
    (h : Reads (headedTurn opener number) scope tokens turn rest) :
    turn.All fun entry ↦
      entry.2.label = entry.1.label ∧ entry.2.name = entry.1.recorded (number + 1) := by
  rcases reads_ite_iff.mp (reads_ahead_bind_iff.mp h) with ⟨-, hstop⟩ | ⟨-, h⟩
  · obtain ⟨rfl, -⟩ := reads_pure_iff.mp hstop
    trivial
  rcases reads_ite_iff.mp h with ⟨-, hfail⟩ | ⟨-, h⟩
  · exact absurd hfail not_reads_fail_bind
  obtain ⟨entry, mid, hentry, h⟩ := reads_bind_iff.mp h
  obtain ⟨seen, mid, -, h⟩ := reads_bind_iff.mp h
  have hnamed := label_name_of_reads_readHeaded hentry
  rcases reads_ite_iff.mp h with ⟨-, hpure⟩ | ⟨-, hpure⟩
  · obtain ⟨rfl, -⟩ := reads_pure_iff.mp hpure
    exact hnamed
  · obtain ⟨rfl, -⟩ := reads_pure_iff.mp hpure
    exact hnamed

private theorem named_of_reads_turns {opener : Token} {number : Nat}
    (h : Reads (repeatFrom (headedTurn opener) number) scope tokens headed rest) :
    Named number headed := by
  induction headed generalizing number tokens with
  | nil => exact ⟨rfl, rfl⟩
  | cons entry others ih =>
    rcases reads_repeatFrom_iff.mp h with ⟨-, hitems⟩ | ⟨entry', hread, hitems⟩ |
      ⟨entry', mid, others', hread, -, hothers, hitems⟩ | ⟨entry', hread, -, hitems⟩
    · cases hitems
    · cases hitems
      exact .cons (label_name_of_reads_headedTurn hread) ⟨rfl, rfl⟩
    · cases hitems
      exact .cons (label_name_of_reads_headedTurn hread) (ih hothers)
    · cases hitems
      exact .cons (label_name_of_reads_headedTurn hread) ⟨rfl, rfl⟩

private theorem named_of_reads_readHeadedClause
    (h : Reads readHeadedClause scope tokens headed rest) : Named 0 headed := by
  obtain ⟨opener, mid, -, h⟩ := reads_bind_iff.mp h
  obtain ⟨headed', mid, hturns, h⟩ := reads_bind_iff.mp h
  obtain ⟨parameters, mid, -, hpure⟩ := reads_bind_iff.mp h
  obtain ⟨rfl, -⟩ := reads_pure_iff.mp hpure
  exact named_of_reads_turns hturns

end

/-! ## Names that are invented -/

/-- No name that a clause invents for a parameter is written in the clause. -/
def Unclaimed (headings : List Heading) : Prop :=
  ∀ index (h : index < headings.length), headings[index].name = wildcard →
    s!"param{index + 1}" ∉ headings.map (·.name)

private theorem invented_injective :
    Function.Injective fun position : Nat ↦ s!"param{position}" := by
  intro position position' h
  exact FieldName.toString_nat_injective ((String.append_right_inj _).mp h)

theorem invented_ne_wildcard (position : Nat) : s!"param{position}" ≠ wildcard := by
  intro h
  have hlength := congrArg String.length h
  rw [String.length_append] at hlength
  have hparam : (toString "param").length = 5 := by decide
  have hwildcard : wildcard.length = 1 := by decide
  omega

/-- Where the written names do not repeat, recorded names repeat only if an invented one is written
as well. -/
theorem nodup_recorded_iff {headings : List Heading}
    (h : ((headings.map (·.name)).filter (· ≠ wildcard)).Nodup) :
    (headings.mapIdx fun index heading ↦ heading.recorded (index + 1)).Nodup ↔
      Unclaimed headings := by
  rw [List.Nodup, List.pairwise_filter] at h
  simp only [List.Nodup, List.pairwise_iff_getElem, List.length_map,
    List.length_mapIdx, List.getElem_map, List.getElem_mapIdx, decide_eq_true_eq] at h ⊢
  constructor
  -- A claimed name is recorded twice: where it is written and where it is invented.
  · intro hdistinct index hindex hunnamed hmem
    obtain ⟨other, hother, hname⟩ := List.getElem_of_mem hmem
    rw [List.length_map] at hother
    rw [List.getElem_map] at hname
    have hrecorded :
        headings[index].recorded (index + 1) = headings[other].recorded (other + 1) := by
      rw [Heading.recorded, if_neg (not_not_intro hunnamed), Heading.recorded, hname,
        if_pos (invented_ne_wildcard _)]
    rcases Nat.lt_trichotomy index other with hlt | rfl | hlt
    · exact hdistinct index other hindex hother hlt hrecorded
    · exact invented_ne_wildcard _ (hname.symm.trans hunnamed)
    · exact hdistinct other index hother hindex hlt hrecorded.symm
  · intro hunclaimed index other hindex hother hlt
    have hmem {index : Nat} (hindex : index < headings.length) :
        headings[index].name ∈ headings.map (·.name) :=
      List.mem_map_of_mem (List.getElem_mem hindex)
    rw [Heading.recorded, Heading.recorded]
    split_ifs with hnamed hnamed' hnamed'
    · exact h index other hindex hother hlt hnamed hnamed'
    · intro heq
      exact hunclaimed other hother (not_not.mp hnamed') (heq ▸ hmem hindex)
    · intro heq
      exact hunclaimed index hindex (not_not.mp hnamed) (heq ▸ hmem hother)
    · exact fun heq ↦ Nat.ne_of_lt hlt (Nat.succ.inj (invented_injective heq))

/-- Where no label repeats, a clash is one of names. -/
theorem clashFrom_of_labels (names : List String) {labels : List String}
    {parameters : List Parameter} (h : (writtenLabels parameters).Nodup)
    (hfresh : ∀ label ∈ writtenLabels parameters, label ∉ labels) :
    (∀ cause, clashFrom labels names parameters = some cause →
        ∃ name, cause = .duplicateName name) ∧
      ((parameters.map name).Nodup → (∀ name ∈ parameters.map Parameter.name, name ∉ names) →
        clashFrom labels names parameters = none) := by
  induction parameters generalizing labels names with
  | nil => exact ⟨fun _ ↦ nofun, fun _ _ ↦ rfl⟩
  | cons parameter parameters ih =>
    have hlabel : ¬ (parameter.label ≠ wildcard ∧ parameter.label ∈ labels) := by
      rintro ⟨hwritten, hmem⟩
      exact hfresh _ (by simp [writtenLabels, hwritten]) hmem
    have hsub : (writtenLabels parameters).Sublist (writtenLabels (parameter :: parameters)) :=
      ((List.sublist_cons_self _ _).map label).filter _
    have hfresh' : ∀ label ∈ writtenLabels parameters, label ∉ parameter.label :: labels := by
      intro label hmem hold
      rcases List.mem_cons.mp hold with rfl | hold
      · have hwritten : parameter.label ≠ wildcard :=
          of_decide_eq_true (List.mem_filter.mp hmem).2
        rw [writtenLabels_cons, if_neg hwritten] at h
        exact (List.nodup_cons.mp h).1 hmem
      · exact hfresh label (hsub.subset hmem) hold
    -- The label in front is none of the others, so it may be added to those that were met.
    obtain ⟨hcause, hnone⟩ := ih (parameter.name :: names) (h.sublist hsub) hfresh'
    rw [clashFrom, if_neg hlabel]
    split
    · next hclash =>
      exact ⟨fun _ heq ↦ ⟨_, (Option.some.inj heq).symm⟩,
        fun _ hnew ↦ absurd hclash (hnew _ List.mem_cons_self)⟩
    · refine ⟨hcause, fun hdistinct hnew ↦ ?_⟩
      obtain ⟨hfirst, hdistinct⟩ := List.nodup_cons.mp hdistinct
      refine hnone hdistinct fun name hmem hold ↦ ?_
      rcases List.mem_cons.mp hold with rfl | hold
      · exact hfirst hmem
      · exact hnew name (List.mem_cons_of_mem _ hmem) hold

end Parameter

namespace Method

/-- Reads the result of a method, if it has one. -/
def readResult? : Reader (Option SwiftType) := do
  if ← accept "->" then some <$> SwiftType.read else return none

/-- Reads the where clause of a method, which may be missing. -/
def readWhere : Reader String := do
  if ← accept "where" then Token.join <$> collectUntil endsMember else return ""

/-- Reads a method without checking it, together with the headings of its parameters. -/
def readHeaded (name : String) (line : Nat) (isStatic : Bool) :
    Reader (List Parameter.Heading × Draft) := do
  let genericClause ← adjoinedGroup .angle
  unless ← sees "(" do fail .noParameterClause
  let headed ← Parameter.readHeadedClause
  let parameters := headed.map Prod.snd
  let effects ← repeated effect
  let result? ← readResult?
  let whereClause ← readWhere
  if ← sees "\x7b" then fail .methodBody
  let tokens ← ahead
  unless endsMember tokens do
    fail (.afterSignature ((tokens.head?.map (·.text)).getD ""))
  let draft : Draft :=
    { name, parameters, result?, genericClause, whereClause, effects, isStatic, line? := some line }
  return (headed.map Prod.fst, draft)

/-- The method that a draft declares, unless the draft is refused. -/
def conclude (draft : Draft) : Reader Method :=
  match draft.check with
  | .error cause => refuse cause
  | .ok method => do
    tell (.readMethod method.selector)
    return method

private theorem readAfterName_eq_bind_conclude (name : String) (line : Nat) (isStatic : Bool) :
    readAfterName name line isStatic =
      readHeaded name line isStatic >>= fun headed ↦ conclude headed.2 := by
  have hclose (draft : Draft) : close draft = (do
      if ← sees "\x7b" then fail .methodBody
      let tokens ← ahead
      unless endsMember tokens do
        fail (.afterSignature ((tokens.head?.map (·.text)).getD ""))
      conclude draft) := rfl
  simp only [readAfterName_eq, readAfterEffects, readAfterResult, hclose, readHeaded, readResult?,
    readWhere, Parameter.readClause_eq_map_readHeadedClause, map_eq_pure_bind, bind_assoc,
    pure_bind, ite_bind]

variable {name : String} {line : Nat} {isStatic : Bool} {scope : Scope} {tokens rest : List Token}
  {headings : List Parameter.Heading} {draft : Draft}

private theorem labels_names_of_reads_readHeaded
    (h : Reads (readHeaded name line isStatic) scope tokens (headings, draft) rest) :
    draft.parameters.map Parameter.label = headings.map (·.label) ∧
      draft.parameters.map Parameter.name =
        headings.mapIdx fun index heading ↦ heading.recorded (index + 1) := by
  obtain ⟨genericClause, mid, -, h⟩ := reads_bind_iff.mp h
  rcases reads_ite_iff.mp (reads_sees_bind_iff.mp h) with ⟨-, h⟩ | ⟨-, h⟩
  · obtain ⟨headed, mid, hclause, h⟩ := reads_bind_iff.mp h
    obtain ⟨hlabels, hnames⟩ := Parameter.named_of_reads_readHeadedClause hclause
    have hpair : headings = headed.map Prod.fst ∧ draft.parameters = headed.map Prod.snd := by
      obtain ⟨effects, mid, -, h⟩ := reads_bind_iff.mp h
      obtain ⟨result?, mid, -, h⟩ := reads_bind_iff.mp h
      obtain ⟨whereClause, mid, -, h⟩ := reads_bind_iff.mp h
      rcases reads_ite_iff.mp (reads_sees_bind_iff.mp h) with ⟨-, h⟩ | ⟨-, h⟩
      · exact absurd h not_reads_fail_bind
      rcases reads_ite_iff.mp (reads_ahead_bind_iff.mp h) with ⟨-, h⟩ | ⟨-, h⟩
      · obtain ⟨heq, -⟩ := reads_pure_iff.mp h
        cases heq
        exact ⟨rfl, rfl⟩
      · exact absurd h not_reads_fail_bind
    obtain ⟨rfl, hparameters⟩ := hpair
    simp only [Nat.zero_add] at hnames
    rw [hparameters, List.map_map, List.map_map, List.map_map]
    exact ⟨hlabels, hnames⟩
  · exact absurd h not_reads_fail_bind

theorem reads_conclude (scope : Scope) (tokens : List Token)
    (hclash : Parameter.clash? draft.parameters = none) :
    ∃ method, Reads (conclude draft) scope tokens method tokens := by
  obtain ⟨method, hcheck, -⟩ := Draft.check_of_distinct draft hclash
  refine ⟨method, ?_⟩
  simp [conclude, hcheck]

private theorem result_conclude {cause : Cause}
    (hclash : Parameter.clash? draft.parameters = some cause) :
    (conclude draft scope tokens).result = .error { cause, place := scope.place } := by
  simp only [conclude, Draft.check_of_clash draft hclash]
  rfl

/-- With labels and written names that do not repeat, a method is accepted if no invented name is
written in its clause, and refused for a name if one is. -/
theorem accepts_iff_unclaimed
    (h : Reads (readHeaded name line isStatic) scope tokens (headings, draft) rest)
    (hlabels : ((headings.map (·.label)).filter (· ≠ wildcard)).Nodup)
    (hnames : ((headings.map (·.name)).filter (· ≠ wildcard)).Nodup) :
    ((∃ method, Reads (readAfterName name line isStatic) scope tokens method rest ∧
        (method.parameters.map (·.name)).Nodup) ↔ Parameter.Unclaimed headings) ∧
      (¬ Parameter.Unclaimed headings → ∃ repeated,
        (readAfterName name line isStatic scope tokens).result =
          .error { cause := .duplicateName repeated, place := scope.place }) := by
  obtain ⟨hlabels', hnames'⟩ := labels_names_of_reads_readHeaded h
  rw [← Parameter.nodup_recorded_iff hnames, ← hnames', readAfterName_eq_bind_conclude]
  have hwritten : (Parameter.writtenLabels draft.parameters).Nodup := by
    rwa [Parameter.writtenLabels, hlabels']
  obtain ⟨hcause, hnone⟩ := Parameter.clashFrom_of_labels [] hwritten
    fun _ _ ↦ List.not_mem_nil
  -- The labels do not clash, so the names alone decide whether the method is refused.
  rcases hclash : Parameter.clash? draft.parameters with _ | cause
  · have hdistinct := (Parameter.nodup_of_clashFrom hclash).2.1
    obtain ⟨method, hmethod⟩ := reads_conclude scope rest hclash
    exact ⟨iff_of_true ⟨method, h.bind_iff.mpr hmethod, method.names_nodup⟩ hdistinct,
      fun hrepeats ↦ absurd hdistinct hrepeats⟩
  · have hresult : ((readHeaded name line isStatic >>= fun headed ↦ conclude headed.2) scope
        tokens).result = .error { cause, place := scope.place } :=
      (bind_of_ok h.result_eq).1.trans (result_conclude hclash)
    have hrepeats : ¬ (draft.parameters.map (·.name)).Nodup := by
      intro hdistinct
      have hclash' := hnone hdistinct fun _ _ ↦ List.not_mem_nil
      cases hclash.symm.trans hclash'
    obtain ⟨repeated, rfl⟩ := hcause cause hclash
    refine ⟨iff_of_false ?_ hrepeats, fun _ ↦ ⟨repeated, hresult⟩⟩
    rintro ⟨method, hmethod, -⟩
    cases hresult.symm.trans hmethod.result_eq

/-- What is written in a clause, and whether a method with this clause is accepted, can be found by
evaluation. -/
theorem exists_reads_readHeaded (clause : String) (headings : List Parameter.Heading)
    (accepted : Bool)
    (h : (Tokens.scan clause).toOption.any (fun scanned ↦
      (readHeaded "f" 1 false ⟨scanned.finish, {}⟩ scanned.items).result.toOption.any
          (·.1 = headings) &&
        (readAfterName "f" 1 false ⟨scanned.finish, {}⟩ scanned.items).result.isOk == accepted) =
          true) :
    ∃ scanned draft rest, Tokens.scan clause = .ok scanned ∧
      Reads (readHeaded "f" 1 false) ⟨scanned.finish, {}⟩ scanned.items (headings, draft) rest ∧
      (readAfterName "f" 1 false ⟨scanned.finish, {}⟩ scanned.items).result.isOk = accepted := by
  obtain ⟨scanned, hscanned, h⟩ := (Option.any_eq_true _ _).mp h
  obtain ⟨hheaded, haccepted⟩ := Bool.and_eq_true_iff.mp h
  obtain ⟨⟨headings', draft⟩, hread, hheadings⟩ := (Option.any_eq_true _ _).mp hheaded
  obtain rfl : headings' = headings := of_decide_eq_true hheadings
  exact ⟨scanned, draft, _, Except.toOption_eq_some_iff.mp hscanned,
    ⟨Except.toOption_eq_some_iff.mp hread, rfl⟩, eq_of_beq haccepted⟩

/-- Two parameters without a name. -/
theorem accepts_iff_unclaimed_unnamed : ∃ scanned draft rest method,
    Tokens.scan "(_: Int, to _: Int)" = .ok scanned ∧
      Reads (readHeaded "f" 1 false) ⟨scanned.finish, {}⟩ scanned.items
        ([⟨"_", "_"⟩, ⟨"to", "_"⟩], draft) rest ∧
      Reads (readAfterName "f" 1 false) ⟨scanned.finish, {}⟩ scanned.items method rest ∧
      (method.parameters.map (·.name)).Nodup := by
  obtain ⟨scanned, draft, rest, hscanned, hheaded, -⟩ :=
    exists_reads_readHeaded "(_: Int, to _: Int)" [⟨"_", "_"⟩, ⟨"to", "_"⟩] true
      (by decide +kernel)
  have hunclaimed : Parameter.Unclaimed [⟨"_", "_"⟩, ⟨"to", "_"⟩] := by
    intro index hindex _ hmem
    have hwildcard : ∀ name ∈ ["_", "_"], name = wildcard := by decide
    exact Parameter.invented_ne_wildcard _ (hwildcard _ hmem)
  obtain ⟨method, hmethod, hnames⟩ :=
    (accepts_iff_unclaimed hheaded (by decide) (by decide)).1.mpr hunclaimed
  exact ⟨scanned, draft, rest, method, hscanned, hheaded, hmethod, hnames⟩

/-- The name that is invented for the first parameter is the written name of the second. -/
theorem not_forall_accepts : ¬ ∀ (name : String) (line : Nat) (isStatic : Bool) (scope : Scope)
    (tokens rest : List Token) (headings : List Parameter.Heading) (draft : Draft),
    Reads (readHeaded name line isStatic) scope tokens (headings, draft) rest →
    ((headings.map (·.label)).filter (· ≠ wildcard)).Nodup →
    ((headings.map (·.name)).filter (· ≠ wildcard)).Nodup →
      ∃ method, Reads (readAfterName name line isStatic) scope tokens method rest := by
  intro h
  obtain ⟨scanned, draft, rest, -, hheaded, hrefused⟩ :=
    exists_reads_readHeaded "(_: Int, param1: Int)" [⟨"_", "_"⟩, ⟨"param1", "param1"⟩] false
      (by decide +kernel)
  obtain ⟨method, hmethod⟩ := h _ _ _ _ _ _ _ _ hheaded (by decide) (by decide)
  rw [hmethod.result_eq] at hrefused
  cases hrefused

end Method

end TestDouble
