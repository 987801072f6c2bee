import TestDouble.Proofs.Outcome.Answers
import TestDouble.Proofs.Protocol.Refinement

/-!
# Texts with one protocol

A text that declares exactly one protocol can be handed in for the test double alone, and a fault is
raised where there is none. It can also be handed in as any other text, and gets one outcome, for
which the protocol is among those that may be refined. Both come to the same. The protocol adds
nothing to what it refines itself, and a fault is laid at the door of the protocol before it is
raised, so that an outcome has nothing to add to it.
-/

namespace TestDouble

/-! ## Faults that are raised -/

namespace Fault

variable {fault : Fault}

/-- The wording of a fault that is raised. It tells the line of a fault of parsing, and of no
other. -/
def raisedText (fault : Fault) : String :=
  if fault.kind = .parsing then fault.text else { fault with line? := none }.text

private theorem raisedText_eq (h : fault.kind = .parsing ∨ fault.line? = none) :
    fault.raisedText = fault.text := by
  obtain ⟨cause, place, line?⟩ := fault
  rw [raisedText]
  split
  · rfl
  · next hkind =>
    obtain rfl : line? = none := h.resolve_left hkind
    rfl

/-- What is reported of a fault that names a protocol is reported of no other fault. -/
theorem within_none_eq_iff {raised : Fault} {name : String}
    (hplace : fault.place.protocol? = some name) (hname : name ≠ "") :
    raised.within none = fault ↔ raised = fault := by
  constructor
  · rintro rfl
    rw [within] at hplace ⊢
    split at hplace
    · cases hplace
    · cases hplace
    · rfl
  · rintro rfl
    rw [within, hplace]
    split
    · next hnone => cases hnone
    · next hempty => exact absurd (Option.some.inj hempty) hname
    · rfl

theorem OfReading.kind_eq_or_line?_eq {protocol? : Option String} (h : fault.OfReading protocol?) :
    fault.kind = .parsing ∨ fault.line? = none := by
  cases h with
  | parsing hkind => exact .inl hkind
  | signature => exact .inr rfl

end Fault

private theorem FieldName.line?_of_assign {methods : List Method} {reserved : List String}
    {fault : Fault} (h : assign methods reserved = .error fault) : fault.line? = none := by
  simp only [assign] at h
  split at h
  · obtain rfl := Except.error.inj h
    rfl
  · cases h

private theorem Mock.line?_of_checkMembers {mock : Mock} {fault : Fault}
    (h : mock.checkMembers = .error fault) : fault.line? = none := by
  rw [checkMembers] at h
  split at h
  · obtain rfl := Except.error.inj h
    rfl
  · cases h

private theorem Mock.line?_of_ofProtocol {style : Style} {known : Catalogue} {protocol : Protocol}
    {fault : Fault} (h : Mock.ofProtocol style known protocol = .error fault) :
    fault.line? = none := by
  simp only [Mock.ofProtocol] at h
  split at h
  · next hassign =>
    obtain rfl := Except.error.inj h
    have hline := FieldName.line?_of_assign hassign
    exact hline
  · exact line?_of_checkMembers h

/-! ## Names -/

/-- What is located has a name. -/
theorem Excerpt.name_ne_empty {text : String} {excerpts : List Excerpt}
    (h : ofText text = .ok excerpts) {excerpt : Excerpt} (hmem : excerpt ∈ excerpts) :
    excerpt.name ≠ "" := by
  obtain ⟨tokens, hscan, rfl⟩ := Except.map_eq_ok_iff.mp h
  obtain ⟨lead, keyword, rest, -, -, hname, hspelled⟩ :=
    exists_keyword_of_mem (by simpa using Token.spelled_of_mem hscan) hmem
  obtain ⟨-, hfirst⟩ := Option.ite_none_right_eq_some.mp hname
  obtain ⟨token, htoken, htext⟩ := Option.map_eq_some_iff.mp hfirst
  obtain ⟨hhead, -⟩ := Option.filter_eq_some_iff.mp htoken
  obtain ⟨c, cs, hspelled, -⟩ := hspelled token (by simp [List.mem_of_mem_head? hhead])
  intro hempty
  simp [htext, hempty] at hspelled

namespace Outcome

/-! ## The only outcome -/

variable {style : Style} {source : Source} {excerpt : Excerpt}

theorem ofReading_add_self {protocol : Protocol} (known : Catalogue) (source : String) :
    ofReading style (known.add protocol) source excerpt (.ok protocol) =
      ofReading style known source excerpt (.ok protocol) := by
  rw [ofReading, ofReading, Mock.ofProtocol, Mock.ofProtocol, Protocol.withInherited_add_self]

/-- The only protocol of a text is treated as if no protocol were known. -/
theorem ofSource_of_single (style : Style) (h : Excerpt.ofText source.content = .ok [excerpt]) :
    ofSource style .empty source =
      [ofReading style .empty source.name excerpt excerpt.read.result] := by
  rw [ofSource, h]
  simp only [ofExcerpts, List.map_cons, List.map_nil, List.cons.injEq, and_true]
  rcases hread : excerpt.read.result with fault | protocol
  · rfl
  · rw [addReadable, List.filterMap_cons_some (by rw [hread]; rfl), List.filterMap_nil,
      List.foldl_cons, List.foldl_nil, ofReading_add_self]

theorem printText_of_single (style : Style) (h : Excerpt.ofText source.content = .ok [excerpt]) :
    Mock.printText style source.content = (do
      let protocol ← excerpt.read.result
      return (← Mock.ofProtocol style .empty protocol).print style) := by
  rw [Mock.printText, Protocol.ofText, h]
  rfl

/-- What is raised where there is no test double, is what is reported. -/
structure Raises (style : Style) (source : Source) (excerpt : Excerpt) (fault : Fault) : Prop where
  printText_eq : Mock.printText style source.content = .error fault
  ofSource_eq : ofSource style .empty source =
    [.refused source.name excerpt.name (style.className excerpt.name) fault]
  protocol?_eq : fault.place.protocol? = some excerpt.name
  kind_eq_or_line?_eq : fault.kind = .parsing ∨ fault.line? = none

/-- A text with one protocol has a test double on both ways, or a fault on both. -/
theorem made_or_raises (style : Style) (h : Excerpt.ofText source.content = .ok [excerpt]) :
    (∃ text, Mock.printText style source.content = .ok text ∧
      ofSource style .empty source = [.made source.name excerpt.name
        (style.className excerpt.name) (style.fileName excerpt.name) text]) ∨
    ∃ fault, Raises style source excerpt fault := by
  have hanswers : Answers style .empty source.name excerpt
      (ofReading style .empty source.name excerpt excerpt.read.result) :=
    answers_ofReading fun protocol ↦ Excerpt.name_eq_of_read h (List.mem_singleton_self excerpt)
  have hsource := ofSource_of_single style h
  have hprint := printText_of_single style h
  generalize ofReading style .empty source.name excerpt excerpt.read.result = outcome
    at hanswers hsource
  cases hanswers with
  | made hread hmock =>
    refine .inl ⟨_, ?_, hsource⟩
    rw [hprint, hread]
    exact congrArg (· >>= fun mock ↦ pure (mock.print style)) hmock
  | unread hread hfault =>
    refine .inr ⟨_, ?_, hsource, hfault.protocol?_eq, hfault.kind_eq_or_line?_eq⟩
    rw [hprint, hread]
    rfl
  | unnamed hread hmock hkind hplace =>
    refine .inr ⟨_, ?_, hsource, hplace, .inr (Mock.line?_of_ofProtocol hmock)⟩
    rw [hprint, hread]
    exact congrArg (· >>= fun mock ↦ pure (mock.print style)) hmock

/-- Where a text declares exactly one protocol, its test double is made if and only if the only
outcome is this test double, and a fault is raised if and only if the only outcome has this fault.
Both are worded in the same way. -/
theorem printText_agrees_ofSource (style : Style) (source : Source)
    (h : ∃ excerpt, Excerpt.ofText source.content = .ok [excerpt]) :
    (∀ text, Mock.printText style source.content = .ok text ↔
      ∃ protocol className fileName, ofSource style .empty source =
        [.made source.name protocol className fileName text]) ∧
    ∀ fault,
      (Mock.printText style source.content = .error fault ↔
        ∃ outcome, ofSource style .empty source = [outcome] ∧
          outcome.fault? = some (fault.within none)) ∧
      (Mock.printText style source.content = .error fault →
        fault.raisedText = (fault.within none).text) := by
  obtain ⟨excerpt, h⟩ := h
  rcases made_or_raises style h with ⟨text, hprint, hsource⟩ | ⟨fault, hraises⟩
  · simp [hprint, hsource, fault?, eq_comm]
  · have hname := Excerpt.name_ne_empty h (List.mem_singleton_self excerpt)
    have hwithin (raised : Fault) : raised.within none = fault ↔ raised = fault :=
      Fault.within_none_eq_iff hraises.protocol?_eq hname
    simp only [hraises.printText_eq, hraises.ofSource_eq]
    refine ⟨by simp, fun raised ↦ ⟨?_, ?_⟩⟩
    · have hsame : fault = raised ↔ fault = raised.within none := by
        rw [eq_comm, ← hwithin, eq_comm]
      simpa [fault?] using hsame
    · rintro hraised
      obtain rfl := Except.error.inj hraised
      rw [(hwithin _).mpr rfl, Fault.raisedText_eq hraises.kind_eq_or_line?_eq]

/-- A protocol that names itself and has a parameter without a type. -/
theorem printText_agrees_ofSource_unread :
    let source : Source := ⟨"Sources/P", "protocol P: P \x7b func f(_ a: \x7d"⟩
    (∃ excerpt, Excerpt.ofText source.content = .ok [excerpt]) ∧
      ∃ outcome, ofSource .standard .empty source = [outcome] ∧
        outcome.fault? = some ⟨.expectedType (some "\x7d"), ⟨some "P", some "f"⟩, some 1⟩ := by
  intro source
  have hcount : (Excerpt.ofText source.content).toOption.map List.length = some 1 := by
    decide +kernel
  obtain ⟨excerpts, htext, hlength⟩ := Option.map_eq_some_iff.mp hcount
  obtain ⟨excerpt, rfl⟩ := List.length_eq_one_iff.mp hlength
  have hone : ∃ excerpt, Excerpt.ofText source.content = .ok [excerpt] :=
    ⟨excerpt, Except.toOption_eq_some_iff.mp htext⟩
  have hprint : Mock.printText .standard source.content =
      .error ⟨.expectedType (some "\x7d"), ⟨some "P", some "f"⟩, some 1⟩ := by decide +kernel
  exact ⟨hone, ((printText_agrees_ofSource .standard source hone).2 _).1.mp hprint⟩

end Outcome

end TestDouble
