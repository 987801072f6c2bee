import TestDouble.Proofs.FieldName.Wordlike
import TestDouble.Proofs.Mock.Capture
import TestDouble.Proofs.Protocol.Merging
import TestDouble.Proofs.Protocol.Spelling

/-!
# Names that are identifiers

A test double is made of names: of its class, of its fields, and of the parameters whose arguments
its overrides keep or call. Only those of fields are made up from words. The name of the protocol is
put behind the prefix of the class as it is written, be it in backticks, and parameters keep their
names, be they reserved words.
-/

namespace TestDouble

open Token

/-! ## Names of one requirement -/

theorem Property.identifies_fields_iff {property : Property} :
    (∀ field ∈ property.fields, Identifies field) ↔ FieldName.Wordlike property.name := by
  have hstub : Identifies property.stubField ↔ FieldName.Wordlike property.name :=
    FieldName.identifies_stubbed_iff
  rw [fields, List.forall_mem_append, List.forall_mem_singleton, hstub]
  refine and_iff_right_of_imp fun hname field hfield ↦ ?_
  obtain ⟨-, hinvoked⟩ := Option.ite_none_right_eq_some.mp (Option.mem_toList.mp hfield)
  exact Option.some.inj hinvoked ▸ FieldName.identifies_invoked_iff.mpr hname

namespace MethodDouble

variable {double : MethodDouble}

theorem identifies_fields_iff :
    (∀ field ∈ double.fields, Identifies field) ↔ FieldName.Wordlike double.name ∧
      ∀ callback ∈ double.callbacks, callback.stub?.isSome = true →
        FieldName.Wordlike callback.parameter := by
  constructor
  · intro h
    refine ⟨FieldName.identifies_invoked_iff.mp (h _ double.flag_mem_fields), ?_⟩
    intro callback hcallback hstub
    obtain ⟨stub, hstub⟩ := Option.isSome_iff_exists.mp hstub
    have hfield := h _ (stub_name_mem_fields (stub_mem_callbackStubs hcallback hstub))
    rw [stub_name_of_mem_callbacks hcallback hstub] at hfield
    exact (FieldName.identifies_stubbedClosure_iff.mp hfield).2
  · rintro ⟨hname, hstubs⟩ field hfield
    have hcases : ∃ field' ∈ double.fields, field' = field := ⟨field, hfield, rfl⟩
    rcases exists_mem_fields_iff.mp hcases with rfl | rfl | ⟨stub, hstub, rfl⟩ | ⟨stub, hstub, rfl⟩
    · exact FieldName.identifies_invoked_iff.mpr hname
    · exact FieldName.identifies_invokedParameters_iff.mpr hname
    · obtain ⟨callback, hcallback, hstub⟩ := List.mem_filterMap.mp hstub
      rw [stub_name_of_mem_callbacks hcallback hstub]
      exact FieldName.identifies_stubbedClosure_iff.mpr
        ⟨hname, hstubs callback hcallback (Option.isSome_iff_exists.mpr ⟨stub, hstub⟩)⟩
    · rw [stub_name_of_resultStub? hstub]
      exact FieldName.identifies_stubbedResult_iff.mpr hname

/-- The names of parameters in a body are those of the parameters in use. -/
theorem forall_taken_iff {p : String → Prop} :
    ((∀ name ∈ double.recordValue.flatMap Term.names, p name) ∧
        ∀ callback ∈ double.callbacks, p callback.call.closure) ↔
      ∀ parameter ∈ double.method.parameters, double.uses parameter = true → p parameter.name := by
  constructor
  · rintro ⟨hkept, hcalled⟩ parameter hparameter huses
    rcases uses_iff.mp huses with hstorable | ⟨callback, hcallback⟩
    · exact hkept _ (mem_names_recordValue_iff.mpr ⟨parameter, hparameter, hstorable, rfl⟩)
    · rw [← Callback.parameter_of_ofParameter? hcallback]
      exact hcalled callback (List.mem_filterMap.mpr ⟨parameter, hparameter, hcallback⟩)
  · refine fun h ↦ ⟨fun name hkept ↦ ?_, fun callback hcalled ↦ ?_⟩
    · obtain ⟨parameter, hparameter, hstorable, rfl⟩ := mem_names_recordValue_iff.mp hkept
      exact h parameter hparameter (uses_iff.mpr (.inl hstorable))
    · obtain ⟨parameter, hparameter, hcallback⟩ := List.mem_filterMap.mp hcalled
      have hname := h parameter hparameter (uses_iff.mpr (.inr ⟨callback, hcallback⟩))
      rwa [← Callback.parameter_of_ofParameter? hcallback] at hname

end MethodDouble

namespace Mock

/-- The names that a test double is printed with: of the class and its fields, and in the bodies of
its overrides those of kept arguments and of closures that are called. -/
def identifiers (mock : Mock) : List String :=
  mock.name :: mock.fields ++ mock.methods.flatMap fun double ↦
    double.recordValue.flatMap Term.names ++ double.callbacks.map (·.call.closure)

/-- What makes the names of a test double identifiers. -/
structure Spellable (mock : Mock) : Prop where
  /-- The prefix of the class stands in front of a word. -/
  of_protocol : '\x60' ∉ mock.protocol.toList
  of_properties : ∀ property ∈ mock.properties, FieldName.Wordlike property.name
  of_methods : ∀ double ∈ mock.methods, FieldName.Wordlike double.name
  of_stubs : ∀ double ∈ mock.methods, ∀ callback ∈ double.callbacks, callback.stub?.isSome = true →
    FieldName.Wordlike callback.parameter
  /-- No parameter in use has a reserved word for a name. -/
  of_parameters : ∀ double ∈ mock.methods, ∀ parameter ∈ double.method.parameters,
    double.uses parameter = true → parameter.name ∉ keywords

instance (mock : Mock) : Decidable mock.Spellable :=
  decidable_of_iff (_ ∧ _ ∧ _ ∧ _ ∧ _)
    ⟨fun ⟨hprotocol, hproperties, hmethods, hstubs, hparameters⟩ ↦
        ⟨hprotocol, hproperties, hmethods, hstubs, hparameters⟩,
      fun ⟨hprotocol, hproperties, hmethods, hstubs, hparameters⟩ ↦
        ⟨hprotocol, hproperties, hmethods, hstubs, hparameters⟩⟩

variable {source : String} {protocol : Protocol} {mock : Mock}

/-- Where no other protocols are known, what is merged is declared by the protocol itself. -/
theorem mem_of_mem_merged {α κ : Type} [BEq κ] [LawfulBEq κ] {part : Protocol → List α}
    {key : α → κ} {item : α}
    (h : item ∈ distinctBy key ((protocol :: (protocol.ancestry .empty).found).flatMap part)) :
    item ∈ part protocol := by
  obtain ⟨declaring, hcontributes, hdeclared⟩ :=
    mem_flatMap_declared_iff.mp (mem_of_mem_distinctFrom h).1
  cases hcontributes with
  | self => exact hdeclared
  | refined _ _ _ hknown => cases hknown

private theorem protocol_of_ofProtocol {style : Style} {known : Catalogue}
    (h : ofProtocol style known protocol = .ok mock) : mock.protocol = protocol.name := by
  obtain ⟨names, -, rfl, -⟩ := ofProtocol_eq_ok_iff.mp h
  rfl

/-- The methods are those that were merged. -/
theorem method_mem_of_mem_ofMerged {style : Style} {merged : Protocol} {names : List String}
    {double : MethodDouble} (h : double ∈ (ofMerged style merged names).methods) :
    double.method ∈ merged.methods ∧ double.name ∈ names := by
  have hzip : double ∈ (merged.methods.zip names).map fun pair ↦ MethodDouble.mk pair.1 pair.2 := by
    rw [List.map_zip_eq_zipWith]
    exact h
  obtain ⟨⟨method, name⟩, hpair, rfl⟩ := List.mem_map.mp hzip
  exact List.of_mem_zip hpair

theorem forall_identifiers_iff {p : String → Prop} :
    (∀ name ∈ mock.identifiers, p name) ↔ p mock.name ∧
      (∀ property ∈ mock.properties, ∀ field ∈ property.fields, p field) ∧
      ∀ double ∈ mock.methods, (∀ field ∈ double.fields, p field) ∧
        ∀ parameter ∈ double.method.parameters, double.uses parameter = true →
          p parameter.name := by
  simp only [← MethodDouble.forall_taken_iff, identifiers, fields, List.cons_append,
    List.forall_mem_cons, List.forall_mem_append, List.forall_mem_flatMap, List.forall_mem_map]
  grind only

private theorem method_mem_of_ofProtocol {style : Style}
    (h : ofProtocol style .empty protocol = .ok mock)
    {double : MethodDouble} (hdouble : double ∈ mock.methods) :
    double.method ∈ protocol.methods := by
  obtain ⟨names, -, rfl, -⟩ := ofProtocol_eq_ok_iff.mp h
  exact mem_of_mem_merged (method_mem_of_mem_ofMerged hdouble).1

/-- Whether the names of a test double are identifiers is up to the names in its protocol. -/
theorem identifies_iff_spellable (h : Protocol.ofText source = .ok protocol)
    (hmock : ofProtocol .standard .empty protocol = .ok mock) :
    (∀ name ∈ mock.identifiers, Identifies name) ↔ mock.Spellable := by
  obtain ⟨hname, hmethods⟩ := Protocol.named_of_ofText h
  have hclass : Identifies mock.name ↔ '\x60' ∉ mock.protocol.toList := by
    rw [name_of_ofProtocol hmock, protocol_of_ofProtocol hmock, ← hname.forall_isNameRest_iff]
    exact FieldName.identifies_append_iff (by decide)
  have hparameter {double : MethodDouble} (hdouble : double ∈ mock.methods) {parameter : Parameter}
      (hparameter : parameter ∈ double.method.parameters) :
      Identifies parameter.name ↔ parameter.name ∉ keywords :=
    ((hmethods _ (method_mem_of_ofProtocol hmock hdouble)).parameters parameter
      hparameter).identifies_iff
  rw [forall_identifiers_iff, hclass]
  simp only [Property.identifies_fields_iff, MethodDouble.identifies_fields_iff]
  constructor
  · rintro ⟨hprotocol, hproperties, hmethods⟩
    exact ⟨hprotocol, hproperties, fun double hdouble ↦ (hmethods double hdouble).1.1,
      fun double hdouble ↦ (hmethods double hdouble).1.2, fun double hdouble parameter hmem huses ↦
        (hparameter hdouble hmem).mp ((hmethods double hdouble).2 parameter hmem huses)⟩
  · rintro ⟨hprotocol, hproperties, hmethods, hstubs, hparameters⟩
    exact ⟨hprotocol, hproperties, fun double hdouble ↦ ⟨⟨hmethods double hdouble,
      hstubs double hdouble⟩, fun parameter hmem huses ↦
        (hparameter hdouble hmem).mpr (hparameters double hdouble parameter hmem huses)⟩⟩

/-- A reserved word in backticks makes a field and names a parameter, but without backticks it names
no parameter. -/
theorem identifies_iff_spellable_where :
    let source := "protocol P \x7b\nvar `default`: Int \x7b get set \x7d\n"
      ++ "func look(_: Int, `where`: @escaping (String) -> Void) -> Bool\n\x7d"
    let source' := "protocol P \x7b\nfunc look(_: Int, where: Int)\n\x7d"
    (∃ protocol mock, Protocol.ofText source = .ok protocol ∧
      ofProtocol .standard .empty protocol = .ok mock ∧
        "stubbedLookWhereResult" ∈ mock.identifiers ∧ ∀ name ∈ mock.identifiers, Identifies name) ∧
    ∃ protocol mock, Protocol.ofText source' = .ok protocol ∧
      ofProtocol .standard .empty protocol = .ok mock ∧ "invokedLook" ∈ mock.identifiers ∧
        ¬ ∀ name ∈ mock.identifiers, Identifies name := by
  intro source source'
  have hplain : ((Protocol.ofText source).toOption.bind ofAlone?).any (fun mock ↦
      "stubbedLookWhereResult" ∈ mock.identifiers && decide mock.Spellable) = true := by
    decide +kernel
  have hreserved : ((Protocol.ofText source').toOption.bind ofAlone?).any (fun mock ↦
      "invokedLook" ∈ mock.identifiers && decide ¬ mock.Spellable) = true := by
    decide +kernel
  obtain ⟨protocol, mock, hprotocol, hmock, hfound⟩ := exists_of_any_ofAlone? hplain
  obtain ⟨protocol', mock', hprotocol', hmock', hfound'⟩ := exists_of_any_ofAlone? hreserved
  rw [Bool.and_eq_true, decide_eq_true_eq, decide_eq_true_eq] at hfound hfound'
  exact ⟨⟨protocol, mock, hprotocol, hmock, hfound.1,
      (identifies_iff_spellable hprotocol hmock).mpr hfound.2⟩,
    protocol', mock', hprotocol', hmock', hfound'.1,
      fun h ↦ hfound'.2 ((identifies_iff_spellable hprotocol' hmock').mp h)⟩

/-- Each kind of name can fail to be an identifier: the class of a protocol in backticks, a field
for a name with a blank, and a parameter that is a reserved word, be it kept or called. -/
theorem not_forall_scansAsIdentifier :
    let Holds (p : Mock → Prop) := ∀ (source : String) (protocol : Protocol) (mock : Mock),
      Protocol.ofText source = .ok protocol →
        ofProtocol .standard .empty protocol = .ok mock → p mock
    ¬ Holds (ScansAsIdentifier ·.name) ∧ ¬ Holds (∀ field ∈ ·.fields, ScansAsIdentifier field) ∧
      ¬ Holds (∀ double ∈ ·.methods, ∀ name ∈ double.recordValue.flatMap Term.names,
        ScansAsIdentifier name) ∧
      ¬ Holds (∀ double ∈ ·.methods, ∀ callback ∈ double.callbacks,
        ScansAsIdentifier callback.call.closure) := by
  intro Holds
  have hnot {p : Mock → Prop} [DecidablePred p] (source : String)
      (h : ((Protocol.ofText source).toOption.bind ofAlone?).any (fun mock ↦ decide ¬ p mock) =
        true) : ¬ Holds p := by
    intro hall
    obtain ⟨protocol, mock, hprotocol, hmock, hfails⟩ := exists_of_any_ofAlone? h
    exact of_decide_eq_true hfails (hall source protocol mock hprotocol hmock)
  exact ⟨hnot "protocol `Type` \x7b\n\x7d" (by decide +kernel),
    hnot "protocol P \x7b\nvar `a b`: Int \x7b get \x7d\n\x7d" (by decide +kernel),
    hnot "protocol P \x7b\nfunc look(where: Int)\n\x7d" (by decide +kernel),
    hnot "protocol P \x7b\nfunc look(where: () -> Void)\n\x7d" (by decide +kernel)⟩

end Mock

/-! ## Regular protocols -/

/-- The names and types that a test double takes from a protocol are made of characters of names,
and none of its parameters has a reserved word for a name. -/
structure Protocol.Regular (protocol : Protocol) : Prop where
  name : '\x60' ∉ protocol.name.toList
  properties : ∀ property ∈ protocol.properties, FieldName.Wordlike property.name
  methods : ∀ method ∈ protocol.methods, FieldName.Regular method
  parameters : ∀ method ∈ protocol.methods, ∀ parameter ∈ method.parameters,
    FieldName.Wordlike parameter.name ∧ parameter.name ∉ keywords

/-- Whatever the names of overloads are, those of a regular protocol can be spelled. -/
theorem Mock.spellable_of_regular {source : String} {protocol : Protocol} {mock : Mock}
    (h : Protocol.ofText source = .ok protocol)
    (hmock : ofProtocol .standard .empty protocol = .ok mock) (hregular : protocol.Regular) :
    mock.Spellable := by
  have hnamed := Protocol.named_of_ofText h
  obtain ⟨names, hnames, rfl, -⟩ := ofProtocol_eq_ok_iff.mp hmock
  have hmethods : ∀ method ∈ (protocol.withInherited .empty).methods, method ∈ protocol.methods :=
    fun _ ↦ mem_of_mem_merged
  refine ⟨hregular.name, fun property hmem ↦ hregular.properties property (mem_of_mem_merged hmem),
    fun double hdouble ↦ ?_, fun double hdouble callback hcallback _ ↦ ?_,
    fun double hdouble parameter hparameter _ ↦ ?_⟩
  · exact FieldName.wordlike_of_mem_assign hnames
      (fun method hmem ↦ (hnamed.methods method (hmethods method hmem)).name)
      (fun method hmem ↦ hregular.methods method (hmethods method hmem))
      (method_mem_of_mem_ofMerged hdouble).2
  · obtain ⟨parameter, hparameter, -, hname, -⟩ :=
      MethodDouble.exists_parameter_of_mem_callbacks hcallback
    have hmethod := hmethods _ (method_mem_of_mem_ofMerged hdouble).1
    exact hname ▸ (hregular.parameters _ hmethod parameter hparameter).1
  · have hmethod := hmethods _ (method_mem_of_mem_ofMerged hdouble).1
    exact (hregular.parameters _ hmethod parameter hparameter).2

end TestDouble
