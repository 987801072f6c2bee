import TestDouble.Mock.Derivation
import TestDouble.Proofs.Except
import TestDouble.Proofs.List

/-!
# Members are unique

A derived test double has passed the check for repeated members, so no two of its fields have one
name: not across properties, overloads and closures either. A name of a method or property leads to
that one alone, since its fields are made of it.
-/

namespace TestDouble

/-! ## Members -/

namespace Mock

private theorem nodup_of_repeatedFrom {earlier members : List (String × String)}
    (h : repeatedFrom earlier members = none) :
    (members.map Prod.fst).Nodup ∧ ∀ name ∈ members.map Prod.fst, name ∉ earlier.map Prod.fst := by
  induction members generalizing earlier with
  | nil => simp
  | cons member members ih =>
    obtain ⟨name, owner⟩ := member
    rw [repeatedFrom] at h
    split at h
    · cases h
    · next hlookup =>
      obtain ⟨hnodup, hnew⟩ := ih h
      have hname : name ∉ earlier.map Prod.fst := by
        intro hmem
        obtain ⟨entry, hentry, rfl⟩ := List.mem_map.mp hmem
        simpa using List.lookup_eq_none_iff.mp hlookup entry hentry
      rw [List.map_cons]
      constructor
      · exact List.nodup_cons.mpr ⟨fun hmem ↦ hnew name hmem List.mem_cons_self, hnodup⟩
      · intro other hother
        rcases List.mem_cons.mp hother with rfl | hmem
        · exact hname
        · exact fun hearlier ↦ hnew other hmem (List.mem_cons_of_mem _ hearlier)

theorem map_fst_members (mock : Mock) :
    mock.members.map Prod.fst =
      mock.properties.map (fun property ↦ FieldName.bare property.name) ++ mock.fields := by
  simp [members, fields, List.map_flatMap, Function.comp_def]

variable {style : Style} {known : Catalogue} {protocol : Protocol} {mock : Mock}

/-- What it takes to derive a test double: names for all methods, and no repeated member. -/
theorem ofProtocol_eq_ok_iff :
    ofProtocol style known protocol = .ok mock ↔
      ∃ names,
        FieldName.assign (protocol.withInherited known).methods
          (reserved (protocol.withInherited known)) = .ok names ∧
        mock = ofMerged style (protocol.withInherited known) names ∧
        repeatedFrom [] mock.members = none := by
  rw [ofProtocol]
  dsimp only
  split
  · next fault hfault => simp [hfault]
  · next names hnames =>
    simp only [hnames, Except.ok.injEq, exists_eq_left', checkMembers]
    split
    · next repetition hrepeated =>
      simp only [reduceCtorEq, false_iff, not_and]
      rintro rfl hnone
      rw [hnone] at hrepeated
      cases hrepeated
    · next hnone =>
      constructor
      · intro h
        obtain rfl := Except.ok.inj h
        exact ⟨rfl, hnone⟩
      · rintro ⟨rfl, -⟩
        rfl

theorem fields_nodup (h : ofProtocol style known protocol = .ok mock) : mock.fields.Nodup := by
  obtain ⟨_, _, _, hmembers⟩ := ofProtocol_eq_ok_iff.mp h
  have hnodup := (nodup_of_repeatedFrom hmembers).1
  rw [map_fst_members] at hnodup
  exact hnodup.of_append_right

/-! ## Names lead to members -/

section

variable (h : mock.fields.Nodup)

include h

theorem nodup_map_name_methods : (mock.methods.map (·.name)).Nodup := by
  have hflags : (mock.methods.map (·.flag)).Nodup :=
    h.of_append_right.sublist (map_sublist_flatMap fun _ ↦ List.mem_cons_self)
  rw [show (·.flag) = FieldName.invoked ∘ MethodDouble.name from rfl, ← List.map_map] at hflags
  exact hflags.of_map _

theorem nodup_map_name_properties : (mock.properties.map (·.name)).Nodup := by
  have hstubs : (mock.properties.map (·.stubField)).Nodup :=
    h.of_append_left.sublist (map_sublist_flatMap fun _ ↦ by simp [Property.fields])
  rw [show (·.stubField) = FieldName.stubbed ∘ Property.name from rfl, ← List.map_map] at hstubs
  exact hstubs.of_map _

theorem fields_nodup_of_mem_methods {double : MethodDouble} (hmem : double ∈ mock.methods) :
    double.fields.Nodup :=
  (List.nodup_flatMap.mp h.of_append_right).1 double hmem

theorem method?_eq_some_iff {name : String} {double : MethodDouble} :
    mock.method? name = some double ↔ double ∈ mock.methods ∧ double.name = name :=
  find?_key_eq_some_iff (nodup_map_name_methods h)

theorem property?_eq_some_iff {name : String} {property : Property} :
    mock.property? name = some property ↔ property ∈ mock.properties ∧ property.name = name :=
  find?_key_eq_some_iff (nodup_map_name_properties h)

end

end Mock

/-! ## Slots of a method -/

theorem Slot.ofParameters_eq (parameters : List Parameter) :
    ofParameters parameters = parameters.map ofParameter
      ++ List.replicate (if parameters.length = 1 then 1 else 0) filler := by
  match parameters with
  | [] => rfl
  | [_] => rfl
  | _ :: _ :: _ => simp [ofParameters]

/-! ## Closures of a method -/

namespace Callback

variable {method : Method} {name : String} {parameter : Parameter} {callback : Callback}

/-- What the call of a parameter's closure consists of, if there is one. -/
theorem ofParameter?_eq_some_iff :
    ofParameter? method name parameter = some callback ↔
      ∃ signature, parameter.type.signature? = some signature ∧ parameter.isVariadic = false ∧
        (signature.isAsync = true → "async" ∈ method.effects) ∧
        callback = {
          parameter := parameter.name
          arity := signature.arguments.length
          stub? :=
            if signature.arguments.isEmpty then none
            else some ⟨FieldName.stubbedClosure name parameter.name, stubType signature.arguments⟩
          isOptional := parameter.type.isOptional
          throws := signature.throws
          isAwaited := signature.isAsync } := by
  rw [ofParameter?]
  split
  · next hnone => simp [hnone]
  · next signature hsome =>
    simp only [hsome, Option.some.injEq, exists_eq_left']
    split
    · next hleft =>
      simp only [reduceCtorEq, false_iff]
      rintro ⟨hvariadic, hasync, -⟩
      simp [hvariadic] at hleft
      exact hleft.2 (hasync hleft.1)
    · next hright =>
      simp only [Option.some.injEq]
      constructor
      · rintro rfl
        simp only [Bool.or_eq_true, Bool.and_eq_true, decide_eq_true_eq, not_or, not_and,
          Bool.not_eq_true] at hright
        exact ⟨hright.1, fun h ↦ by simpa using hright.2 h, rfl⟩
      · rintro ⟨-, -, rfl⟩
        rfl

end Callback

namespace MethodDouble

variable {double : MethodDouble} {callback : Callback} {stub : Stub}

@[grind →] theorem stub_name_of_mem_callbacks (h : callback ∈ double.callbacks)
    (hstub : callback.stub? = some stub) :
    stub.name = FieldName.stubbedClosure double.name callback.parameter := by
  obtain ⟨parameter, -, hparameter⟩ := List.mem_filterMap.mp h
  obtain ⟨signature, -, -, -, rfl⟩ := Callback.ofParameter?_eq_some_iff.mp hparameter
  simp only [Option.ite_none_left_eq_some, Option.some.injEq] at hstub
  exact hstub.2 ▸ rfl

@[grind →] theorem stub_name_of_resultStub? (h : double.resultStub? = some stub) :
    stub.name = FieldName.stubbedResult double.name := by
  obtain ⟨_, -, rfl⟩ := Option.map_eq_some_iff.mp h
  rfl

private theorem map_parameter_callbacks_sublist (double : MethodDouble) :
    (double.callbacks.map (·.parameter)).Sublist (double.method.parameters.map (·.name)) := by
  rw [callbacks]
  induction double.method.parameters with
  | nil => exact .slnil
  | cons parameter parameters ih =>
    rw [List.filterMap_cons]
    split
    · exact ih.cons _
    · next callback hcallback =>
      obtain ⟨_, _, _, _, rfl⟩ := Callback.ofParameter?_eq_some_iff.mp hcallback
      exact ih.cons_cons _

/-- There is a field for the arguments of exactly those closures that take some. -/
theorem stub?_eq_none_iff (h : callback ∈ double.callbacks) :
    callback.stub? = none ↔ callback.arity = 0 := by
  obtain ⟨parameter, -, hparameter⟩ := List.mem_filterMap.mp h
  obtain ⟨signature, -, -, -, rfl⟩ := Callback.ofParameter?_eq_some_iff.mp hparameter
  simp

theorem flag_mem_fields (double : MethodDouble) : double.flag ∈ double.fields := by
  simp [fields]

theorem record_mem_fields (double : MethodDouble) : double.record ∈ double.fields := by
  simp [fields]

theorem stub_mem_callbackStubs (h : callback ∈ double.callbacks)
    (hstub : callback.stub? = some stub) : stub ∈ double.callbackStubs :=
  List.mem_filterMap.mpr ⟨callback, h, hstub⟩

theorem stub_name_mem_fields (h : stub ∈ double.callbackStubs) : stub.name ∈ double.fields := by
  simp only [fields, List.mem_append, List.mem_map]
  exact .inl (.inr ⟨stub, h, rfl⟩)

theorem resultStub_name_mem_fields (h : double.resultStub? = some stub) :
    stub.name ∈ double.fields := by
  simp [fields, h]

/-- Every closure that is called belongs to a parameter that is a closure. -/
theorem exists_parameter_of_mem_callbacks (h : callback ∈ double.callbacks) :
    ∃ parameter ∈ double.method.parameters, parameter.isClosure = true ∧
      parameter.name = callback.parameter ∧ parameter.type.isOptional = callback.isOptional := by
  obtain ⟨parameter, hmem, hparameter⟩ := List.mem_filterMap.mp h
  obtain ⟨signature, hsignature, hvariadic, -, rfl⟩ :=
    Callback.ofParameter?_eq_some_iff.mp hparameter
  refine ⟨parameter, hmem, ?_, rfl, rfl⟩
  rw [Parameter.isClosure, SwiftType.isClosure, hsignature, hvariadic]
  rfl

theorem callback?_eq_some_iff {parameter : String} :
    double.callback? parameter = some callback ↔
      callback ∈ double.callbacks ∧ callback.parameter = parameter :=
  find?_key_eq_some_iff (double.method.names_nodup.sublist double.map_parameter_callbacks_sublist)

end MethodDouble

/-! ## All members at once -/

namespace Mock

/-- Members have names of their own, and a name leads to the member that it was made for. -/
structure Unambiguous (mock : Mock) : Prop where
  /-- A property of the protocol has a name among the members, but methods may share theirs. -/
  members_nodup :
    (mock.properties.map (fun property ↦ FieldName.bare property.name) ++ mock.fields).Nodup
  names_nodup : (mock.methods.map (·.name)).Nodup
  method?_name : ∀ double ∈ mock.methods, mock.method? double.name = some double
  property?_name : ∀ property ∈ mock.properties, mock.property? property.name = some property
  callback?_parameter : ∀ double ∈ mock.methods, ∀ callback ∈ double.callbacks,
    double.callback? callback.parameter = some callback

theorem unambiguous_of_ofProtocol {style : Style} {known : Catalogue} {protocol : Protocol}
    {mock : Mock} (h : ofProtocol style known protocol = .ok mock) : mock.Unambiguous := by
  obtain ⟨_, _, _, hmembers⟩ := ofProtocol_eq_ok_iff.mp h
  have hnodup := (nodup_of_repeatedFrom hmembers).1
  rw [map_fst_members] at hnodup
  have hfields := fields_nodup h
  constructor
  case members_nodup => exact hnodup
  case names_nodup => exact nodup_map_name_methods hfields
  case method?_name => exact fun double hmem ↦ (method?_eq_some_iff hfields).mpr ⟨hmem, rfl⟩
  case property?_name => exact fun property hmem ↦ (property?_eq_some_iff hfields).mpr ⟨hmem, rfl⟩
  case callback?_parameter =>
    exact fun double _ callback hmem ↦ MethodDouble.callback?_eq_some_iff.mpr ⟨hmem, rfl⟩

/-- Two overloads, one with a closure that takes an argument, and an inherited property whose name
is a reserved word. -/
theorem unambiguous_overloads :
    let save (label : String) (type : SwiftType) : Method := {
      name := "save"
      parameters := [{ name := "x", label? := some label, type := type }]
      labels_nodup := (List.nodup_singleton label).filter _
      names_nodup := List.nodup_singleton "x"
      result_not_void := by simp }
    let closure : SwiftType :=
      { base := "(Int) -> Void", signature? := some { arguments := [{ base := "Int" }] } }
    let base : Protocol := {
      name := "Base"
      properties := [{ name := "\x60default\x60", type := { base := "Int" }, hasSetter := true }] }
    let store : Protocol := {
      name := "Store"
      methods := [save "a" { base := "Int" }, save "b" closure]
      inherited := ["Base"] }
    ∃ mock, ofProtocol .standard (Catalogue.empty.add base) store = .ok mock ∧
      mock.fields = ["invokedDefault", "stubbedDefault", "invokedSaveA", "invokedSaveAParameters",
        "invokedSaveB", "invokedSaveBParameters", "stubbedSaveBXResult"] ∧ mock.Unambiguous := by
  intro save closure base store
  have hancestry : store.ancestry (Catalogue.empty.add base) =
      { found := [base], listed := ["Base"], visited := ["Base", "Store"] } := by
    have hnil (ancestry : Ancestry) :
        Ancestry.follow (Catalogue.empty.add base) "Store" [] ancestry = ancestry := by
      rw [Ancestry.follow]
    rw [Protocol.ancestry, Ancestry.follow]
    exact hnil _
  have hfields : (ofProtocol .standard (Catalogue.empty.add base) store).toOption.map fields =
      some ["invokedDefault", "stubbedDefault", "invokedSaveA", "invokedSaveAParameters",
        "invokedSaveB", "invokedSaveBParameters", "stubbedSaveBXResult"] := by
    rw [ofProtocol, Protocol.withInherited, hancestry]
    decide +kernel
  obtain ⟨mock, hmock, hfields⟩ := Option.map_eq_some_iff.mp hfields
  have hmock := Except.toOption_eq_some_iff.mp hmock
  exact ⟨mock, hmock, hfields, unambiguous_of_ofProtocol hmock⟩

end Mock

end TestDouble
