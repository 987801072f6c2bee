import TestDouble.Mock.Statement
import TestDouble.Proofs.Mock.Alone

/-!
# What the names in an override stand for

The body of an override mixes three kinds of names: fields of the test double, parameters that the
protocol's author chose, and the variable that holds what a test has set for a closure. A name
stands for what the innermost scope declares, and backticks around it make no difference to that.
The check for repeated members compares members with each other only, so it is up to the names of
the parameters whether each name of a body stands for what it was put there for.
-/

namespace TestDouble

/-! ## Names in a body -/

/-- What a name in the body of an override may stand for. -/
inductive Referent where
  | variable (name : String)
  | parameter (name : String)
  | member (name : String)
  deriving DecidableEq, Repr

/-- A name in the body of an override. -/
structure Mention where
  /-- The name, without backticks. -/
  name : String
  /-- The variables that are bound where the name stands. -/
  bound : List String := []
  /-- What the name was put there for. -/
  meant : Referent
  deriving DecidableEq, Repr

namespace Mention

def ofVariable (bound : List String) (name : String) : Mention :=
  ⟨name, bound, .variable name⟩

def ofParameter (bound : List String) (name : String) : Mention :=
  ⟨FieldName.bare name, bound, .parameter name⟩

def ofMember (name : String) : Mention :=
  ⟨name, [], .member name⟩

end Mention

def Term.names : Term → List String
  | unit => []
  | named name => [name]
  | element tuple _ => [tuple]

/-- The names in the call of a closure: the closure is a parameter, its arguments are variables. -/
def Call.mentions (call : Call) (bound : List String) : List Mention :=
  .ofParameter bound call.closure :: (call.arguments.flatMap Term.names).map (.ofVariable bound)

/-- The names in a statement. A variable is bound in the call that it is bound for, and not in the
field that its value comes from. -/
def Statement.mentions : Statement → List Mention
  | raise flag => [.ofMember flag]
  | keep record values =>
    .ofMember record :: (values.flatMap Term.names).map (.ofParameter [])
  | call made => made.mentions []
  | callIfSet field binding made => .ofMember field :: made.mentions [binding]
  | giveBack field => [.ofMember field]

namespace Mock

/-- All that a name may stand for in an override of the method: what the innermost scope that knows
the name declares. -/
def referents (mock : Mock) (method : Method) (bound : List String) (name : String) :
    List Referent :=
  match bound.filter (· = name), method.parameters.filter (FieldName.bare ·.name = name) with
  | [], [] => ((mock.members.map Prod.fst).filter (· = name)).map .member
  | [], parameters => parameters.map (.parameter ·.name)
  | bindings, _ => bindings.map .variable

/-- Whether the name stands for what it was put there for, and for nothing else. -/
def Resolves (mock : Mock) (method : Method) (mention : Mention) : Prop :=
  mock.referents method mention.bound mention.name = [mention.meant]

instance (mock : Mock) (method : Method) (mention : Mention) :
    Decidable (mock.Resolves method mention) :=
  inferInstanceAs (Decidable (_ = _))

/-- Whether every name in the body of the override does. -/
def CapturesNothing (mock : Mock) (double : MethodDouble) : Prop :=
  ∀ mention ∈ double.body.flatMap Statement.mentions, mock.Resolves double.method mention

instance (mock : Mock) (double : MethodDouble) : Decidable (mock.CapturesNothing double) :=
  inferInstanceAs (Decidable (∀ mention ∈ _, _))

end Mock

/-! ## Which names there are -/

namespace Callback

/-- The variables bound around the call. -/
def bound (callback : Callback) : List String :=
  if callback.stub?.isSome then [binding] else []

theorem not_mem_bound_iff {callback : Callback} {name : String} :
    name ∉ callback.bound ↔ (callback.stub?.isSome = true → name ≠ binding) := by
  rw [bound]
  split <;> simp_all

theorem parameter_of_ofParameter? {method : Method} {name : String} {parameter : Parameter}
    {callback : Callback} (h : ofParameter? method name parameter = some callback) :
    callback.parameter = parameter.name := by
  obtain ⟨_, _, _, _, rfl⟩ := ofParameter?_eq_some_iff.mp h
  rfl

/-- The arguments of a call mention the bound variable alone. -/
theorem eq_binding_of_mem_names {callback : Callback} {name : String}
    (h : name ∈ callback.arguments.flatMap Term.names) : name = binding ∧ callback.arity ≠ 0 := by
  rw [arguments] at h
  split at h
  · cases h
  · next harity => exact ⟨by simpa [Term.names] using h, by simp [harity]⟩
  · next harity _ =>
    obtain ⟨term, hterm, hname⟩ := List.mem_flatMap.mp h
    obtain ⟨i, -, rfl⟩ := List.mem_map.mp hterm
    exact ⟨List.mem_singleton.mp hname, harity⟩

/-- Besides its field, the statement for a closure mentions what the call does. -/
theorem mentions_statement (callback : Callback) :
    callback.statement.mentions =
      (callback.stub?.map fun stub ↦ Mention.ofMember stub.name).toList
        ++ callback.call.mentions callback.bound := by
  rw [statement, bound]
  cases callback.stub? <;> rfl

end Callback

namespace MethodDouble

variable {double : MethodDouble} {mention : Mention}

/-- The arguments that are kept are those of parameters whose arguments may be. -/
theorem mem_names_recordValue_iff {name : String} :
    name ∈ double.recordValue.flatMap Term.names ↔
      ∃ parameter ∈ double.method.parameters, parameter.isStorable = true ∧
        name = parameter.name := by
  have hvalue (parameter : Parameter) : name ∈ (Slot.ofParameter parameter).value.names ↔
      parameter.isStorable = true ∧ name = parameter.name := by
    rw [Slot.ofParameter]
    split
    · next hstorable => simp [hstorable, Slot.value, Term.names]
    · next helided => simp [helided, Slot.value, Term.names]
  have hfiller : Slot.filler.value.names = [] := rfl
  rw [recordValue, slots]
  unfold Slot.ofParameters
  split
  · next hparameters => simp [hparameters, hvalue, hfiller]
  · simp [hvalue]

/-- The names in the statements for closures: the fields that hold their arguments, and what the
calls mention. -/
theorem mem_mentions_callbacks_iff :
    mention ∈ (double.callbacks.map (·.statement)).flatMap Statement.mentions ↔
      (∃ stub ∈ double.callbackStubs, mention = .ofMember stub.name) ∨
        ∃ callback ∈ double.callbacks, mention ∈ callback.call.mentions callback.bound := by
  have hstatement (callback : Callback) : mention ∈ callback.statement.mentions ↔
      (∃ stub, callback.stub? = some stub ∧ mention = .ofMember stub.name) ∨
        mention ∈ callback.call.mentions callback.bound := by
    rw [Callback.mentions_statement, List.mem_append, Option.mem_toList, Option.map_eq_some_iff]
    simp only [eq_comm]
  rw [List.flatMap_map, List.mem_flatMap]
  constructor
  · rintro ⟨callback, hmem, hmention⟩
    rcases (hstatement callback).mp hmention with ⟨stub, hstub, rfl⟩ | hcall
    · exact .inl ⟨stub, stub_mem_callbackStubs hmem hstub, rfl⟩
    · exact .inr ⟨callback, hmem, hcall⟩
  · rintro (⟨stub, hmem, rfl⟩ | ⟨callback, hmem, hcall⟩)
    · obtain ⟨callback, hcallback, hstub⟩ := List.mem_filterMap.mp hmem
      exact ⟨callback, hcallback, (hstatement callback).mpr (.inl ⟨stub, hstub, rfl⟩)⟩
    · exact ⟨callback, hmem, (hstatement callback).mpr (.inr hcall)⟩

theorem exists_mem_fields_iff {p : String → Prop} :
    (∃ field ∈ double.fields, p field) ↔ p double.flag ∨ p double.record ∨
      (∃ stub ∈ double.callbackStubs, p stub.name) ∨ ∃ stub ∈ double.resultStub?, p stub.name := by
  have hresult : (∃ field ∈ (double.resultStub?.map (·.name)).toList, p field) ↔
      ∃ stub ∈ double.resultStub?, p stub.name := by
    cases double.resultStub? <;> simp
  simp only [fields, List.mem_append, or_and_right, exists_or, hresult]
  simp [or_assoc]

/-- The names in a body: all fields of the method, the parameters whose arguments are kept, and
what the calls of its closures mention. -/
theorem mem_mentions_body_iff :
    mention ∈ double.body.flatMap Statement.mentions ↔
      (∃ field ∈ double.fields, mention = .ofMember field) ∨
      (∃ parameter ∈ double.method.parameters, parameter.isStorable = true ∧
        mention = .ofParameter [] parameter.name) ∨
      ∃ callback ∈ double.callbacks, mention ∈ callback.call.mentions callback.bound := by
  have hkept : mention ∈ (double.recordValue.flatMap Term.names).map (.ofParameter []) ↔
      ∃ parameter ∈ double.method.parameters, parameter.isStorable = true ∧
        mention = .ofParameter [] parameter.name := by
    rw [List.mem_map]
    constructor
    · rintro ⟨name, hname, rfl⟩
      obtain ⟨parameter, hmem, hstorable, rfl⟩ := mem_names_recordValue_iff.mp hname
      exact ⟨parameter, hmem, hstorable, rfl⟩
    · rintro ⟨parameter, hmem, hstorable, rfl⟩
      exact ⟨_, mem_names_recordValue_iff.mpr ⟨parameter, hmem, hstorable, rfl⟩, rfl⟩
  have hresult : mention ∈ ((double.resultStub?.map fun stub ↦
      Statement.giveBack stub.name).toList.flatMap Statement.mentions) ↔
        ∃ stub ∈ double.resultStub?, mention = .ofMember stub.name := by
    cases double.resultStub? <;> simp [Statement.mentions]
  rw [body, List.flatMap_append, List.flatMap_append, List.mem_append, List.mem_append,
    mem_mentions_callbacks_iff, hresult, exists_mem_fields_iff, ← hkept]
  simp only [List.flatMap_cons, List.flatMap_nil, Statement.mentions, List.append_nil,
    List.mem_append, List.mem_cons, List.not_mem_nil, or_false]
  -- The same cases on both sides, in another order.
  grind only

end MethodDouble

/-! ## What a name stands for -/

namespace Mock

variable {mock : Mock} {method : Method} {bound : List String} {name : String}

/-- A name that neither a variable nor a parameter has stands for a member. -/
theorem referents_of_forall_ne (hbound : name ∉ bound)
    (hparameters : ∀ parameter ∈ method.parameters, FieldName.bare parameter.name ≠ name) :
    mock.referents method bound name =
      ((mock.members.map Prod.fst).filter (· = name)).map .member := by
  have hbindings : bound.filter (· = name) = [] := by
    simpa [List.filter_eq_nil_iff] using fun other hother ↦ ne_of_mem_of_not_mem hother hbound
  have hnone : method.parameters.filter (FieldName.bare ·.name = name) = [] := by
    simpa [List.filter_eq_nil_iff] using hparameters
  rw [referents, hbindings, hnone]

/-- A name that no variable but some parameter has stands for parameters. -/
theorem referents_of_parameter (hbound : name ∉ bound) {parameter : Parameter}
    (hmem : parameter ∈ method.parameters) (hname : FieldName.bare parameter.name = name) :
    mock.referents method bound name =
      (method.parameters.filter (FieldName.bare ·.name = name)).map (.parameter ·.name) := by
  have hbindings : bound.filter (· = name) = [] := by
    simpa [List.filter_eq_nil_iff] using fun other hother ↦ ne_of_mem_of_not_mem hother hbound
  have hsome : parameter ∈ method.parameters.filter (FieldName.bare ·.name = name) := by
    simp [hmem, hname]
  rw [referents, hbindings]
  split
  · next _ hnone =>
    rw [hnone] at hsome
    cases hsome
  · rfl
  · contradiction

theorem referents_of_mem_bound (hbound : name ∈ bound) :
    mock.referents method bound name = (bound.filter (· = name)).map .variable := by
  have hsome : name ∈ bound.filter (· = name) := by simp [hbound]
  rw [referents]
  split
  · next hnone _ =>
    rw [hnone] at hsome
    cases hsome
  · next hnone _ =>
    rw [hnone] at hsome
    cases hsome
  · rfl

/-- A member is found unless a parameter has its name. -/
theorem resolves_ofMember_iff (hnodup : (mock.members.map Prod.fst).Nodup)
    (hmem : name ∈ mock.members.map Prod.fst) :
    mock.Resolves method (.ofMember name) ↔
      ∀ parameter ∈ method.parameters, FieldName.bare parameter.name ≠ name := by
  change mock.referents method [] name = [.member name] ↔ _
  constructor
  · intro hmember parameter hparameter hname
    rw [referents_of_parameter List.not_mem_nil hparameter hname] at hmember
    obtain ⟨_, _, hreferent⟩ := List.map_eq_singleton_iff.mp hmember
    cases hreferent
  · intro hparameters
    have hmembers : (mock.members.map Prod.fst).filter (· = name) = [name] := by
      rw [List.filter_eq, List.Nodup.count hnodup, if_pos hmem, List.replicate_one]
    rw [referents_of_forall_ne List.not_mem_nil hparameters, hmembers, List.map_singleton]

/-- A parameter is found unless a variable has its name, or another parameter does when backticks
are left out. -/
theorem resolves_ofParameter_iff {parameter : Parameter} (hmem : parameter ∈ method.parameters) :
    mock.Resolves method (.ofParameter bound parameter.name) ↔
      FieldName.bare parameter.name ∉ bound ∧ ∀ other ∈ method.parameters,
        FieldName.bare other.name = FieldName.bare parameter.name →
          other.name = parameter.name := by
  change mock.referents method bound (FieldName.bare parameter.name) = [.parameter parameter.name]
    ↔ _
  set name := FieldName.bare parameter.name with hname
  by_cases hbound : name ∈ bound
  · have hne : mock.referents method bound name ≠ [.parameter parameter.name] := by
      rw [referents_of_mem_bound hbound]
      intro hvariable
      obtain ⟨_, _, hreferent⟩ := List.map_eq_singleton_iff.mp hvariable
      cases hreferent
    simp [hne, hbound]
  · rw [referents_of_parameter hbound hmem hname.symm]
    have hself : parameter ∈ method.parameters.filter (FieldName.bare ·.name = name) := by
      simp [hmem, hname]
    constructor
    · intro hsingle
      obtain ⟨found, hfound, -⟩ := List.map_eq_singleton_iff.mp hsingle
      rw [hfound, List.mem_singleton] at hself
      refine ⟨hbound, fun other hother heq ↦ ?_⟩
      have hfiltered : other ∈ method.parameters.filter (FieldName.bare ·.name = name) := by
        simp [hother, heq]
      rw [hfound, List.mem_singleton] at hfiltered
      rw [hfiltered, hself]
    · rintro ⟨-, hother⟩
      -- The names of a method's parameters differ as they are written, backticks included.
      have hnodup : method.parameters.Nodup := method.names_nodup.of_map _
      have hsingle : method.parameters.filter (FieldName.bare ·.name = name) = [parameter] := by
        refine (List.perm_singleton).mp ((List.perm_ext_iff_of_nodup (hnodup.filter _)
          (List.nodup_singleton _)).mpr fun other ↦ ?_)
        simp only [List.mem_filter, decide_eq_true_eq, List.mem_singleton]
        exact ⟨fun h ↦ List.inj_on_of_nodup_map method.names_nodup h.1 hmem (hother other h.1 h.2),
          fun h ↦ h ▸ ⟨hmem, rfl⟩⟩
      rw [hsingle, List.map_singleton]

theorem resolves_ofVariable (method : Method) (name : String) :
    mock.Resolves method (.ofVariable [name] name) := by
  simp [Resolves, referents, Mention.ofVariable]

end Mock

/-! ## When nothing is captured -/

namespace MethodDouble

/-- Whether the body of the override names the parameter, to keep its argument or to call it. -/
def uses (double : MethodDouble) (parameter : Parameter) : Bool :=
  parameter.isStorable || (Callback.ofParameter? double.method double.name parameter).isSome

theorem uses_iff {double : MethodDouble} {parameter : Parameter} :
    double.uses parameter = true ↔ parameter.isStorable = true ∨
      ∃ callback, Callback.ofParameter? double.method double.name parameter = some callback := by
  rw [uses, Bool.or_eq_true, Option.isSome_iff_exists]

/-- What keeps the names in the override of a method apart. -/
structure NamesApart (double : MethodDouble) : Prop where
  /-- No closure has the name of the variable that its arguments are bound to. -/
  of_binding : ∀ callback ∈ double.callbacks, callback.stub?.isSome = true →
    FieldName.bare callback.parameter ≠ Callback.binding
  /-- No parameter has the name of a field. -/
  of_fields : ∀ parameter ∈ double.method.parameters, FieldName.bare parameter.name ∉ double.fields
  /-- No parameter in use differs from another one in its backticks only. -/
  of_parameters : ∀ parameter ∈ double.method.parameters, double.uses parameter = true →
    ∀ other ∈ double.method.parameters,
      FieldName.bare other.name = FieldName.bare parameter.name → other.name = parameter.name

instance (double : MethodDouble) : Decidable double.NamesApart :=
  decidable_of_iff (_ ∧ _ ∧ _)
    ⟨fun ⟨hbinding, hfields, hparameters⟩ ↦ ⟨hbinding, hfields, hparameters⟩,
      fun ⟨hbinding, hfields, hparameters⟩ ↦ ⟨hbinding, hfields, hparameters⟩⟩

/-- All field names begin with one of two words. -/
theorem isPrefix_of_mem_fields {double : MethodDouble} {field : String}
    (h : field ∈ double.fields) :
    "invoked".toList <+: field.toList ∨ "stubbed".toList <+: field.toList := by
  have hcases : (∃ field' ∈ double.fields, field' = field) := ⟨field, h, rfl⟩
  rcases exists_mem_fields_iff.mp hcases with rfl | rfl | ⟨stub, hstub, rfl⟩ | ⟨stub, hstub, rfl⟩
  · exact .inl (by simp [flag, FieldName.invoked])
  · exact .inl (by simp [record, FieldName.invokedParameters, String.append_assoc])
  · obtain ⟨callback, hcallback, hstub⟩ := List.mem_filterMap.mp hstub
    rw [stub_name_of_mem_callbacks hcallback hstub]
    exact .inr (by simp [FieldName.stubbedClosure, String.append_assoc])
  · rw [stub_name_of_resultStub? hstub]
    exact .inr (by simp [FieldName.stubbedResult, String.append_assoc])

/-- Parameters with names that no field and no variable can have are no trouble. -/
theorem namesApart_of_plain {double : MethodDouble}
    (hnodup : (double.method.parameters.map (FieldName.bare ·.name)).Nodup)
    (hplain : ∀ parameter ∈ double.method.parameters,
      FieldName.bare parameter.name ≠ Callback.binding ∧
      ¬ "invoked".toList <+: (FieldName.bare parameter.name).toList ∧
      ¬ "stubbed".toList <+: (FieldName.bare parameter.name).toList) : double.NamesApart where
  of_binding callback hcallback _ := by
    obtain ⟨parameter, hparameter, -, hname, -⟩ := exists_parameter_of_mem_callbacks hcallback
    rw [← hname]
    exact (hplain parameter hparameter).1
  of_fields parameter hparameter hfield := by
    obtain ⟨-, hinvoked, hstubbed⟩ := hplain parameter hparameter
    exact (isPrefix_of_mem_fields hfield).elim hinvoked hstubbed
  of_parameters parameter hparameter _ other hother heq :=
    congrArg Parameter.name (List.inj_on_of_nodup_map hnodup hother hparameter heq)

end MethodDouble

namespace Mock

variable {style : Style} {known : Catalogue} {protocol : Protocol} {mock : Mock}
  {double : MethodDouble}

/-- The names in the call of a closure stand for what they should if that of the closure does. -/
theorem forall_mentions_call_iff {callback : Callback} (hmem : callback ∈ double.callbacks) :
    (∀ mention ∈ callback.call.mentions callback.bound, mock.Resolves double.method mention) ↔
      mock.Resolves double.method (.ofParameter callback.bound callback.parameter) := by
  have harguments : ∀ mention ∈ (callback.call.arguments.flatMap Term.names).map
      (Mention.ofVariable callback.bound), mock.Resolves double.method mention := by
    intro mention hmention
    obtain ⟨name, hname, rfl⟩ := List.mem_map.mp hmention
    obtain ⟨rfl, harity⟩ := Callback.eq_binding_of_mem_names hname
    -- A closure with arguments has a stub, so the variable is bound around its call.
    have hstub : callback.stub?.isSome = true := by
      rw [Option.isSome_iff_ne_none]
      exact fun hnone ↦ harity ((MethodDouble.stub?_eq_none_iff hmem).mp hnone)
    rw [Callback.bound, if_pos hstub]
    exact resolves_ofVariable _ _
  rw [Call.mentions, List.forall_mem_cons]
  exact and_iff_left harguments

theorem capturesNothing_iff_resolves :
    mock.CapturesNothing double ↔
      (∀ field ∈ double.fields, mock.Resolves double.method (.ofMember field)) ∧
      (∀ parameter ∈ double.method.parameters, parameter.isStorable = true →
        mock.Resolves double.method (.ofParameter [] parameter.name)) ∧
      ∀ callback ∈ double.callbacks,
        mock.Resolves double.method (.ofParameter callback.bound callback.parameter) := by
  rw [CapturesNothing]
  constructor
  · intro h
    refine ⟨fun field hfield ↦ h _ ?_, fun parameter hparameter hstorable ↦ h _ ?_,
      fun callback hcallback ↦ (forall_mentions_call_iff hcallback).mp fun mention hmention ↦
        h _ ?_⟩
    · exact MethodDouble.mem_mentions_body_iff.mpr (.inl ⟨field, hfield, rfl⟩)
    · exact MethodDouble.mem_mentions_body_iff.mpr
        (.inr (.inl ⟨parameter, hparameter, hstorable, rfl⟩))
    · exact MethodDouble.mem_mentions_body_iff.mpr (.inr (.inr ⟨callback, hcallback, hmention⟩))
  · rintro ⟨hfields, hparameters, hcallbacks⟩ mention hmention
    rcases MethodDouble.mem_mentions_body_iff.mp hmention with
      ⟨field, hfield, rfl⟩ | ⟨parameter, hparameter, hstorable, rfl⟩ | ⟨callback, hcallback, hcall⟩
    · exact hfields field hfield
    · exact hparameters parameter hparameter hstorable
    · exact (forall_mentions_call_iff hcallback).mpr (hcallbacks callback hcallback) mention hcall

/-- The fields of a method are found if no parameter has the name of one. -/
theorem forall_resolves_ofMember_iff (h : ofProtocol style known protocol = .ok mock)
    (hdouble : double ∈ mock.methods) :
    (∀ field ∈ double.fields, mock.Resolves double.method (.ofMember field)) ↔
      ∀ parameter ∈ double.method.parameters,
        FieldName.bare parameter.name ∉ double.fields := by
  have hnodup : (mock.members.map Prod.fst).Nodup := by
    rw [map_fst_members]
    exact (unambiguous_of_ofProtocol h).members_nodup
  have hmember {field : String} (hfield : field ∈ double.fields) :
      field ∈ mock.members.map Prod.fst := by
    rw [map_fst_members, fields]
    exact List.mem_append_right _
      (List.mem_append_right _ (List.mem_flatMap.mpr ⟨double, hdouble, hfield⟩))
  constructor
  · intro hfields parameter hparameter hfield
    exact (resolves_ofMember_iff hnodup (hmember hfield)).mp (hfields _ hfield) parameter
      hparameter rfl
  · intro hapart field hfield
    refine (resolves_ofMember_iff hnodup (hmember hfield)).mpr fun parameter hparameter hname ↦ ?_
    exact hapart parameter hparameter (hname ▸ hfield)

/-- The parameters in use are found if no closure has the name of the variable, and no parameter
has that of another one. -/
theorem forall_resolves_ofParameter_iff :
    ((∀ parameter ∈ double.method.parameters, parameter.isStorable = true →
        mock.Resolves double.method (.ofParameter [] parameter.name)) ∧
      ∀ callback ∈ double.callbacks,
        mock.Resolves double.method (.ofParameter callback.bound callback.parameter)) ↔
      (∀ callback ∈ double.callbacks, callback.stub?.isSome = true →
        FieldName.bare callback.parameter ≠ Callback.binding) ∧
      ∀ parameter ∈ double.method.parameters, double.uses parameter = true →
        ∀ other ∈ double.method.parameters,
          FieldName.bare other.name = FieldName.bare parameter.name →
            other.name = parameter.name := by
  constructor
  · rintro ⟨hkept, hcalled⟩
    refine ⟨fun callback hcallback ↦ ?_, fun parameter hparameter huses ↦ ?_⟩
    · obtain ⟨parameter, hparameter, -, hname, -⟩ :=
        MethodDouble.exists_parameter_of_mem_callbacks hcallback
      have hresolves := hcalled callback hcallback
      rw [← hname, resolves_ofParameter_iff hparameter] at hresolves
      exact hname ▸ Callback.not_mem_bound_iff.mp hresolves.1
    · rcases MethodDouble.uses_iff.mp huses with hstorable | ⟨callback, hcallback⟩
      · exact ((resolves_ofParameter_iff hparameter).mp
          (hkept parameter hparameter hstorable)).2
      · have hmem := List.mem_filterMap.mpr ⟨parameter, hparameter, hcallback⟩
        have hresolves := hcalled callback hmem
        rw [Callback.parameter_of_ofParameter? hcallback, resolves_ofParameter_iff hparameter]
          at hresolves
        exact hresolves.2
  · rintro ⟨hbinding, hdistinct⟩
    refine ⟨fun parameter hparameter hstorable ↦ ?_, fun callback hcallback ↦ ?_⟩
    · have huses : double.uses parameter = true := MethodDouble.uses_iff.mpr (.inl hstorable)
      exact (resolves_ofParameter_iff hparameter).mpr
        ⟨List.not_mem_nil, hdistinct parameter hparameter huses⟩
    · have hbound := Callback.not_mem_bound_iff.mpr (hbinding callback hcallback)
      obtain ⟨parameter, hparameter, hfound⟩ := List.mem_filterMap.mp hcallback
      have huses := MethodDouble.uses_iff.mpr (.inr ⟨callback, hfound⟩)
      rw [Callback.parameter_of_ofParameter? hfound] at hbound ⊢
      exact (resolves_ofParameter_iff hparameter).mpr
        ⟨hbound, hdistinct parameter hparameter huses⟩

/-- Whether the names in an override all stand for what they were put there for is up to the names
of the parameters. -/
theorem capturesNothing_iff (h : ofProtocol style known protocol = .ok mock)
    (hdouble : double ∈ mock.methods) : mock.CapturesNothing double ↔ double.NamesApart := by
  rw [capturesNothing_iff_resolves, forall_resolves_ofMember_iff h hdouble,
    forall_resolves_ofParameter_iff]
  constructor
  · rintro ⟨hfields, hbinding, hparameters⟩
    exact ⟨hbinding, hfields, hparameters⟩
  · rintro ⟨hbinding, hfields, hparameters⟩
    exact ⟨hfields, hbinding, hparameters⟩

/-- A closure that takes the variable's name, and a closure that is called without arguments beside
a parameter that has the name of another method's field. -/
theorem capturesNothing_iff_stop :
    let source := "protocol P \x7b\nfunc run(result: (Int) -> Void)\n"
      ++ "func stop(result: () -> Void, invokedRun: Int)\n\x7d"
    ∃ protocol mock, Protocol.ofText source = .ok protocol ∧
      ofProtocol .standard .empty protocol = .ok mock ∧
      mock.methods.map (·.name) = ["run", "stop"] ∧
      ∀ double ∈ mock.methods, mock.CapturesNothing double ↔ double.name = "stop" := by
  intro source
  have hfound : ((Protocol.ofText source).toOption.bind ofAlone?).any (fun mock ↦
      mock.methods.map (·.name) = ["run", "stop"] ∧
        ∀ double ∈ mock.methods, double.NamesApart ↔ double.name = "stop") = true := by
    decide +kernel
  obtain ⟨protocol, mock, hprotocol, hmock, hdoubles⟩ := exists_of_any_ofAlone? hfound
  obtain ⟨hnames, hapart⟩ := of_decide_eq_true hdoubles
  refine ⟨protocol, mock, hprotocol, hmock, hnames, fun double hdouble ↦ ?_⟩
  exact (capturesNothing_iff hmock hdouble).trans (hapart double hdouble)

/-- A closure that takes the variable's name, and a parameter that takes a field's. -/
theorem not_forall_names_apart :
    (¬ ∀ (source : String) (protocol : Protocol) (mock : Mock),
      Protocol.ofText source = .ok protocol → ofProtocol .standard .empty protocol = .ok mock →
        ∀ double ∈ mock.methods, ∀ callback ∈ double.callbacks, callback.stub?.isSome = true →
          callback.parameter ≠ Callback.binding) ∧
    ¬ ∀ (source : String) (protocol : Protocol) (mock : Mock),
      Protocol.ofText source = .ok protocol → ofProtocol .standard .empty protocol = .ok mock →
        ∀ double ∈ mock.methods, ∀ parameter ∈ double.method.parameters,
          FieldName.bare parameter.name ∉ double.fields := by
  constructor
  · intro h
    have hfound : ((Protocol.ofText "protocol P \x7b\nfunc run(result: (Int) -> Void)\n\x7d"
        ).toOption.bind ofAlone?).any (fun mock ↦
          mock.methods.any fun double ↦ double.callbacks.any fun callback ↦
            callback.stub?.isSome && callback.parameter = Callback.binding) = true := by
      decide +kernel
    obtain ⟨protocol, mock, hprotocol, hmock, hshadowed⟩ := exists_of_any_ofAlone? hfound
    simp only [List.any_eq_true, Bool.and_eq_true, decide_eq_true_eq] at hshadowed
    obtain ⟨double, hdouble, callback, hcallback, hstub, hname⟩ := hshadowed
    exact h _ protocol mock hprotocol hmock double hdouble callback hcallback hstub hname
  · intro h
    have hfound : ((Protocol.ofText "protocol P \x7b\nfunc run(invokedRun: Int)\n\x7d"
        ).toOption.bind ofAlone?).any (fun mock ↦
          mock.methods.any fun double ↦ double.method.parameters.any fun parameter ↦
            FieldName.bare parameter.name ∈ double.fields) = true := by
      decide +kernel
    obtain ⟨protocol, mock, hprotocol, hmock, htaken⟩ := exists_of_any_ofAlone? hfound
    simp only [List.any_eq_true, decide_eq_true_eq] at htaken
    obtain ⟨double, hdouble, parameter, hparameter, hfield⟩ := htaken
    exact h _ protocol mock hprotocol hmock double hdouble parameter hparameter hfield

end Mock

end TestDouble
