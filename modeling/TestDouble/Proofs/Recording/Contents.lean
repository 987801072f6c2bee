import Mathlib.Logic.Function.Basic
import TestDouble.Proofs.Except
import TestDouble.Proofs.Mock.Members
import TestDouble.Recording.Basic

/-!
# What the fields of a test double are for

All fields of a test double at work stand in one list under generated names. Each of them has a
purpose, and a double without repeated fields has one field for each purpose. So a recording is what
the purposes have for contents, and to set a field is to change the contents of its purpose alone.
-/

namespace TestDouble

/-! ## Purposes -/

/-- What a field is for. Methods and properties are given by name. -/
inductive Purpose where
  /-- What was written to the property. -/
  | written (property : String)
  /-- What the property holds. -/
  | held (property : String)
  /-- Whether the method was called. -/
  | flag (method : String)
  /-- With what it was called. -/
  | record (method : String)
  /-- With what it calls the closure that is passed for the parameter. -/
  | callback (method parameter : String)
  /-- What it returns. -/
  | result (method : String)
  deriving DecidableEq

namespace Purpose

@[grind =] def field : Purpose → String
  | written property => FieldName.invoked property
  | held property => FieldName.stubbed property
  | flag method => FieldName.invoked method
  | record method => FieldName.invokedParameters method
  | callback method parameter => FieldName.stubbedClosure method parameter
  | result method => FieldName.stubbedResult method

/-- What the field holds when nothing has happened. -/
def initial : Purpose → Cell
  | flag _ => .holds (.bool false)
  | written _ | record _ | callback _ _ => .holds .null
  | held _ | result _ => .unset

end Purpose

/-- The purposes of the property's fields. -/
def Property.purposes (property : Property) : List Purpose :=
  (if property.hasSetter then [.written property.name] else []) ++ [.held property.name]

/-- The purpose of the field for the arguments of a closure, if it takes any. -/
def Callback.purpose? (name : String) (callback : Callback) : Option Purpose :=
  callback.stub?.map fun _ ↦ .callback name callback.parameter

/-- The purposes of the method's fields. -/
def MethodDouble.purposes (double : MethodDouble) : List Purpose :=
  [.flag double.name, .record double.name]
    ++ double.callbacks.filterMap (·.purpose? double.name)
    ++ (double.resultStub?.map fun _ ↦ .result double.name).toList

/-- The purposes of all fields, in the order of their declaration. -/
def Mock.purposes (mock : Mock) : List Purpose :=
  mock.properties.flatMap (·.purposes) ++ mock.methods.flatMap (·.purposes)

/-! ## Fields by purpose -/

@[simp] theorem Property.map_field_purposes (property : Property) :
    property.purposes.map Purpose.field = property.fields := by
  simp only [purposes, fields, writeField?]
  split <;> rfl

private theorem Property.initialProperty_eq (property : Property) :
    Recording.initialProperty property = property.purposes.map fun p ↦ (p.field, p.initial) := by
  simp only [Recording.initialProperty, purposes, writeField?]
  split <;> rfl

namespace MethodDouble

/-- The fields for the arguments of closures, each with the purpose it was made for. -/
theorem map_callbackStubs {α : Type} (double : MethodDouble) (f : String → α) :
    double.callbackStubs.map (fun stub ↦ f stub.name) =
      (double.callbacks.filterMap (·.purpose? double.name)).map fun p ↦ f p.field := by
  rw [callbackStubs, List.map_filterMap, List.map_filterMap]
  refine List.filterMap_congr fun callback hcallback ↦ ?_
  rcases hstub : callback.stub? with _ | stub
  · simp [Callback.purpose?, hstub]
  · simp [Callback.purpose?, hstub, Purpose.field,
      double.stub_name_of_mem_callbacks hcallback hstub]

@[simp] theorem map_field_purposes (double : MethodDouble) :
    double.purposes.map Purpose.field = double.fields := by
  have hstubs := double.map_callbackStubs id
  simp only [id_eq] at hstubs
  rw [purposes, fields, hstubs, resultStub?]
  rcases double.method.result? with _ | type <;> simp [Purpose.field, flag, record]

private theorem initial_of_mem_callbacks {double : MethodDouble} {p : Purpose}
    (h : p ∈ double.callbacks.filterMap (·.purpose? double.name)) : p.initial = .holds .null := by
  obtain ⟨callback, -, hp⟩ := List.mem_filterMap.mp h
  obtain ⟨_, -, rfl⟩ := Option.map_eq_some_iff.mp hp
  rfl

private theorem initialMethod_eq (double : MethodDouble) :
    Recording.initialMethod double = double.purposes.map fun p ↦ (p.field, p.initial) := by
  have hstubs := double.map_callbackStubs fun name ↦ (name, Cell.holds .null)
  have hinitial : (double.callbacks.filterMap (·.purpose? double.name)).map
        (fun p ↦ (p.field, Cell.holds .null)) =
      (double.callbacks.filterMap (·.purpose? double.name)).map fun p ↦ (p.field, p.initial) :=
    List.map_congr_left fun p hp ↦ by rw [initial_of_mem_callbacks hp]
  rw [Recording.initialMethod, purposes, hstubs, hinitial, resultStub?]
  rcases double.method.result? with _ | type <;>
    simp [Purpose.field, Purpose.initial, flag, record]

end MethodDouble

namespace Mock

variable {mock : Mock}

@[simp]
theorem map_field_purposes (mock : Mock) : mock.purposes.map Purpose.field = mock.fields := by
  simp only [purposes, fields, List.map_append, List.map_flatMap, Property.map_field_purposes,
    MethodDouble.map_field_purposes]

private theorem field_inj (h : mock.fields.Nodup) {p p' : Purpose} (hp : p ∈ mock.purposes)
    (hp' : p' ∈ mock.purposes) : p.field = p'.field ↔ p = p' := by
  rw [← map_field_purposes] at h
  exact ⟨List.inj_on_of_nodup_map h hp hp', congrArg _⟩

/-! ## Which purposes there are -/

@[simp] theorem written_mem_purposes {name : String} :
    .written name ∈ mock.purposes ↔
      ∃ property ∈ mock.properties, property.hasSetter = true ∧ property.name = name := by
  simp [purposes, Property.purposes, MethodDouble.purposes, Callback.purpose?, eq_comm (a := name)]

@[simp] theorem held_mem_purposes {name : String} :
    .held name ∈ mock.purposes ↔ ∃ property ∈ mock.properties, property.name = name := by
  simp [purposes, Property.purposes, MethodDouble.purposes, Callback.purpose?, eq_comm (a := name)]

@[simp] theorem flag_mem_purposes {name : String} :
    .flag name ∈ mock.purposes ↔ ∃ double ∈ mock.methods, double.name = name := by
  simp [purposes, Property.purposes, MethodDouble.purposes, Callback.purpose?, eq_comm (a := name)]

@[simp] theorem record_mem_purposes {name : String} :
    .record name ∈ mock.purposes ↔ ∃ double ∈ mock.methods, double.name = name := by
  simp [purposes, Property.purposes, MethodDouble.purposes, Callback.purpose?, eq_comm (a := name)]

@[simp] theorem callback_mem_purposes {name parameter : String} :
    .callback name parameter ∈ mock.purposes ↔
      ∃ double ∈ mock.methods, ∃ callback ∈ double.callbacks,
        (∃ stub, callback.stub? = some stub) ∧ double.name = name ∧
          callback.parameter = parameter := by
  simp [purposes, Property.purposes, MethodDouble.purposes, Callback.purpose?]

@[simp] theorem result_mem_purposes {name : String} :
    .result name ∈ mock.purposes ↔
      ∃ double ∈ mock.methods, (∃ stub, double.resultStub? = some stub) ∧ double.name = name := by
  simp [purposes, Property.purposes, MethodDouble.purposes, Callback.purpose?]

end Mock

/-! ## Setting a field -/

namespace Recording

/-- A set field holds the value, and the others hold what they held. -/
@[simp] theorem cell?_set (recording : Recording) (field : String) (value : Value) (name : String) :
    (recording.set field value).cell? name =
      (recording.cell? name).map fun cell ↦ if name = field then .holds value else cell := by
  rw [cell?, cell?, set]
  induction recording.cells with
  | nil => rfl
  | cons entry cells ih =>
    obtain ⟨key, cell⟩ := entry
    rw [List.map_cons, lookup_cons_eq_ite, lookup_cons_eq_ite, ih]
    by_cases h : name = key <;> simp [h]

theorem cell?_set_ne_none {recording : Recording} {field name : String} {value : Value} :
    (recording.set field value).cell? name ≠ none ↔ recording.cell? name ≠ none := by
  simp

end Recording

/-! ## Recordings by purpose -/

/-- What the fields of a test double hold. -/
abbrev Contents := Purpose → Cell

namespace Recording

variable {mock : Mock} {contents contents' : Contents} {p : Purpose}

def ofContents (mock : Mock) (contents : Contents) : Recording where
  cells := mock.purposes.map fun p ↦ (p.field, contents p)

theorem initial_eq (mock : Mock) : initial mock = ofContents mock Purpose.initial := by
  simp only [initial, ofContents, Mock.purposes, List.map_append, List.map_flatMap,
    ← Property.initialProperty_eq, ← MethodDouble.initialMethod_eq]

@[simp] theorem map_fst_cells_ofContents (mock : Mock) (contents : Contents) :
    (ofContents mock contents).cells.map Prod.fst = mock.fields := by
  rw [ofContents, List.map_map, ← Mock.map_field_purposes]
  rfl

theorem ofContents_congr (h : ∀ p ∈ mock.purposes, contents p = contents' p) :
    ofContents mock contents = ofContents mock contents' := by
  rw [ofContents, ofContents, List.map_congr_left fun p hp ↦ by rw [h p hp]]

section

variable (h : mock.fields.Nodup)

include h

theorem cell?_ofContents (contents : Contents) (hp : p ∈ mock.purposes) :
    (ofContents mock contents).cell? p.field = some (contents p) := by
  rw [← Mock.map_field_purposes] at h
  exact lookup_map_of_nodup h contents hp

/-- To set a field is to change what its purpose has for contents. -/
theorem set_ofContents (contents : Contents) (hp : p ∈ mock.purposes) (value : Value) :
    (ofContents mock contents).set p.field value =
      ofContents mock (Function.update contents p (.holds value)) := by
  rw [set, ofContents, ofContents, List.map_map, Recording.mk.injEq]
  refine List.map_congr_left fun p' hp' ↦ ?_
  simp only [Function.comp_apply, Function.update_apply, Mock.field_inj h hp' hp]

/-! ## Looking up fields -/

omit h in
/-- A look-up finds the field for the purpose, where the test double has one, and nothing else. -/
def Finds (mock : Mock) (found : Except Refusal String) (p : Purpose) : Prop :=
  ∀ field, found = .ok field ↔ p ∈ mock.purposes ∧ p.field = field

/-- A purpose that no field has can be given any contents. -/
theorem assign_ofContents {found : Except Refusal String} (hfinds : Finds mock found p)
    (contents : Contents) (value : Value) :
    ((ofContents mock contents).assign found value).recording =
      ofContents mock (Function.update contents p (.holds value)) := by
  rcases hfound : found with refusal | field
  · refine ofContents_congr fun p' hp' ↦ ?_
    have hp : p ∉ mock.purposes := by
      intro hp
      rw [(hfinds _).mpr ⟨hp, rfl⟩] at hfound
      cases hfound
    rw [Function.update_of_ne (ne_of_mem_of_not_mem hp' hp)]
  · obtain ⟨hp, rfl⟩ := (hfinds field).mp hfound
    exact set_ofContents h contents hp value

omit h in
@[simp] theorem orRefuse_eq_ok_iff {α : Type} {found? : Option α} {refusal : Refusal} {a : α} :
    orRefuse found? refusal = .ok a ↔ found? = some a := by
  cases found? <;> simp [orRefuse]

theorem findMethod_eq_ok_iff {name : String} {double : MethodDouble} :
    findMethod mock name = .ok double ↔ double ∈ mock.methods ∧ double.name = name := by
  simp [findMethod, Mock.method?_eq_some_iff h]

theorem findProperty_eq_ok_iff {name : String} {property : Property} :
    findProperty mock name = .ok property ↔
      property ∈ mock.properties ∧ property.name = name := by
  simp [findProperty, Mock.property?_eq_some_iff h]

theorem finds_stubField (name : String) : Finds mock (stubField mock name) (.held name) := by
  intro field
  simp only [stubField, Except.bind_eq_ok_iff, findProperty_eq_ok_iff h, Mock.held_mem_purposes]
  grind [Property.stubField]

theorem finds_writeField (name : String) : Finds mock (writeField mock name) (.written name) := by
  intro field
  simp only [writeField, Except.bind_eq_ok_iff, findProperty_eq_ok_iff h, orRefuse_eq_ok_iff,
    Property.writeField?, Option.ite_none_right_eq_some, Option.some.injEq,
    Mock.written_mem_purposes]
  grind

theorem finds_resultField (name : String) : Finds mock (resultField mock name) (.result name) := by
  intro field
  simp only [resultField, Except.bind_eq_ok_iff, findMethod_eq_ok_iff h, orRefuse_eq_ok_iff,
    Option.map_eq_some_iff, Mock.result_mem_purposes]
  grind

theorem finds_closureField (name parameter : String) :
    Finds mock (closureField mock name parameter) (.callback name parameter) := by
  intro field
  simp only [closureField, Except.bind_eq_ok_iff, findMethod_eq_ok_iff h, orRefuse_eq_ok_iff,
    MethodDouble.callback?_eq_some_iff, Option.map_eq_some_iff, Mock.callback_mem_purposes]
  grind

end

end Recording

end TestDouble
