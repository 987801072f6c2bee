import Mathlib.Data.List.Forall2
import TestDouble.Mock.Statement
import TestDouble.Proofs.FieldName.Settled
import TestDouble.Proofs.Mock.Members
import TestDouble.Proofs.Protocol.Refinement

/-!
# Test doubles mirror requirements

A test double has a group of fields for each method that is required after merging, in the same
order, and what is in the group follows from the parameters one by one. Two questions are asked of a
parameter that is a closure, and they have nothing to do with each other: whether the closure may be
kept after the call, which decides what its slot holds, and whether it can be called from the
method, which decides whether there is a callback. A variadic parameter is no closure for either of
them.
-/

namespace TestDouble

/-! ## Parameters that are closures -/

namespace Parameter

/-- The argument is a closure that is gone when the call returns. -/
structure IsPassing (parameter : Parameter) : Prop where
  isClosure : parameter.type.signature?.isSome = true
  not_variadic : parameter.isVariadic = false
  required : parameter.type.optionality = .required
  not_escaping : "@escaping" ∉ parameter.type.attributes

/-- The argument is a closure that the method can call. -/
def isCalledIn (method : Method) (parameter : Parameter) : Bool :=
  !parameter.isVariadic && parameter.type.signature?.any fun signature ↦
    !signature.isAsync || "async" ∈ method.effects

theorem isStorable_eq_false_iff {parameter : Parameter} :
    parameter.isStorable = false ↔ parameter.IsPassing := by
  simp only [isStorable, isClosure, SwiftType.isClosure, SwiftType.isEscaping,
    SwiftType.isOptional, Bool.or_eq_false_iff, Bool.not_eq_false', Bool.and_eq_true,
    Bool.not_eq_true', decide_eq_false_iff_not, not_not]
  constructor
  · rintro ⟨⟨hclosure, hvariadic⟩, hrequired, hescaping⟩
    exact ⟨hclosure, hvariadic, hrequired, hescaping⟩
  · rintro ⟨hclosure, hvariadic, hrequired, hescaping⟩
    exact ⟨⟨hclosure, hvariadic⟩, hrequired, hescaping⟩

private theorem isSome_ofParameter? (method : Method) (name : String) (parameter : Parameter) :
    (Callback.ofParameter? method name parameter).isSome = parameter.isCalledIn method := by
  rw [Bool.eq_iff_iff, Option.isSome_iff_exists]
  simp only [Callback.ofParameter?_eq_some_iff, isCalledIn, Bool.and_eq_true, Bool.not_eq_true',
    Option.any_eq_true, Bool.or_eq_true, decide_eq_true_eq, or_iff_not_imp_left, Bool.not_eq_false]
  constructor
  · rintro ⟨_, signature, hsignature, hvariadic, hasync, -⟩
    exact ⟨hvariadic, signature, hsignature, hasync⟩
  · rintro ⟨hvariadic, signature, hsignature, hasync⟩
    exact ⟨_, signature, hsignature, hvariadic, hasync, rfl⟩

end Parameter

/-! ## Slots -/

/-- The slot keeps the argument that is passed for the parameter, or the unit value in its place. -/
structure Slot.Mirrors (slot : Slot) (parameter : Parameter) : Prop where
  name?_eq : slot.name? = some parameter.name
  optionality_eq : slot.optionality = parameter.type.optionality
  isElided_iff : slot.isElided = true ↔ parameter.IsPassing
  of_elided : slot.isElided = true → slot.type = "Void" ∧ slot.value = .unit
  of_kept : slot.isElided = false →
    slot.type = parameter.storage ∧ slot.value = .named parameter.name

theorem Slot.mirrors_ofParameter (parameter : Parameter) :
    (ofParameter parameter).Mirrors parameter := by
  rw [ofParameter]
  split
  · next hstorable =>
    have hnot : ¬ parameter.IsPassing := by
      rw [← Parameter.isStorable_eq_false_iff, hstorable]
      exact Bool.noConfusion
    exact ⟨rfl, rfl, iff_of_false Bool.noConfusion hnot, Bool.noConfusion, fun _ ↦ ⟨rfl, rfl⟩⟩
  · next hnot =>
    have hpassing := Parameter.isStorable_eq_false_iff.mp (Bool.eq_false_iff.mpr hnot)
    exact ⟨rfl, rfl, iff_of_true rfl hpassing, fun _ ↦ ⟨rfl, rfl⟩, Bool.noConfusion⟩

/-! ## Callbacks -/

/-- The callback calls the closure that is passed for the parameter, and has a stub if that takes
arguments. -/
structure Callback.Mirrors (callback : Callback) (parameter : Parameter) : Prop where
  parameter_eq : callback.parameter = parameter.name
  stub_iff : callback.stub?.isSome = true ↔
    ∃ signature, parameter.type.signature? = some signature ∧ signature.arguments ≠ []

theorem Callback.mirrors_of_ofParameter? {method : Method} {name : String} {parameter : Parameter}
    {callback : Callback} (h : ofParameter? method name parameter = some callback) :
    callback.Mirrors parameter := by
  obtain ⟨signature, hsignature, -, -, rfl⟩ := ofParameter?_eq_some_iff.mp h
  refine ⟨rfl, ?_⟩
  simp [hsignature]

private theorem forall₂_filterMap_filter {α β : Type} {f : α → Option β} {p : α → Bool}
    (xs : List α) (h : ∀ x, (f x).isSome = p x) :
    List.Forall₂ (fun y x ↦ f x = some y) (xs.filterMap f) (xs.filter p) := by
  induction xs with
  | nil => exact .nil
  | cons x xs ih =>
    rcases hx : f x with _ | y
    · rw [List.filterMap_cons_none hx, List.filter_cons_of_neg (by simp [← h, hx])]
      exact ih
    · rw [List.filterMap_cons_some hx, List.filter_cons_of_pos (by simp [← h, hx])]
      exact .cons hx ih

/-! ## Groups of fields -/

/-- The group of fields is what the method requires. -/
structure MethodDouble.Mirrors (double : MethodDouble) : Prop where
  slots : ∃ own, List.Forall₂ Slot.Mirrors own double.method.parameters ∧
    double.slots = own ++ if double.method.parameters.length = 1 then [.filler] else []
  callbacks : List.Forall₂ Callback.Mirrors double.callbacks
    (double.method.parameters.filter (·.isCalledIn double.method))
  length_fields : double.fields.length = 2 + double.callbacks.countP (·.stub?.isSome) +
    if double.method.result?.isSome then 1 else 0

theorem MethodDouble.mirrors (double : MethodDouble) : double.Mirrors := by
  constructor
  case slots =>
    refine ⟨double.method.parameters.map Slot.ofParameter, ?_, ?_⟩
    · rw [List.forall₂_map_left_iff, List.forall₂_same]
      exact fun parameter _ ↦ Slot.mirrors_ofParameter parameter
    · rw [MethodDouble.slots, Slot.ofParameters_eq]
      split <;> rfl
  case callbacks =>
    have hcalled := forall₂_filterMap_filter double.method.parameters
      (Parameter.isSome_ofParameter? double.method double.name)
    exact hcalled.imp fun _ _ ↦ Callback.mirrors_of_ofParameter?
  case length_fields =>
    -- The two fields that every method has are the flag and the record of its calls.
    have hstubs : double.callbackStubs.length = double.callbacks.countP (·.stub?.isSome) := by
      rw [callbackStubs, List.length_filterMap_eq_countP]
    have hresult : (double.resultStub?.map (·.name)).toList.length =
        if double.method.result?.isSome then 1 else 0 := by
      rw [resultStub?]
      cases double.method.result? <;> rfl
    rw [fields, List.length_append, List.length_append, List.length_map, hstubs, hresult]
    rfl

namespace Mock

/-- The methods of a test double are the merged ones in their order, each with the fields that it
requires. -/
theorem mirrors_of_ofProtocol {style : Style} {known : Catalogue} {protocol : Protocol}
    {mock : Mock} (h : ofProtocol style known protocol = .ok mock) :
    mock.methods.map (·.method) = (protocol.withInherited known).methods ∧
      ∀ double ∈ mock.methods, double.Mirrors := by
  obtain ⟨names, hnames, rfl, -⟩ := ofProtocol_eq_ok_iff.mp h
  obtain ⟨-, hlength⟩ := FieldName.assign_eq_ok_iff.mp hnames
  refine ⟨?_, fun double _ ↦ double.mirrors⟩
  calc (ofMerged style (protocol.withInherited known) names).methods.map (·.method)
    _ = ((protocol.withInherited known).methods.zip names).map Prod.fst := by
      rw [List.map_zip_eq_zipWith]
      exact List.map_zipWith
    _ = (protocol.withInherited known).methods := List.map_fst_zip hlength.ge

/-- One method has a closure that is gone when it returns, one that is kept but cannot be awaited,
and several in one parameter. The other method is inherited, and has a single closure, which is
optional and awaited. -/
theorem mirrors_of_ofProtocol_closures :
    let int : SwiftType := { base := "Int" }
    let closure (arguments : List SwiftType) (effects attributes : List String) : SwiftType :=
      { base := "Closure", attributes, signature? := some { arguments, effects } }
    let fetch : Method := {
      name := "fetch"
      parameters := [{ name := "each", type := closure [int, int] [] [] },
        { name := "done", type := closure [] ["async"] ["@escaping"] },
        { name := "more", type := closure [int] [] [], isVariadic := true }]
      result? := some int
      labels_nodup := by decide
      names_nodup := by decide
      result_not_void := by simp [int, SwiftType.isVoid] }
    let wait : Method := {
      name := "wait"
      parameters :=
        [{ name := "body", type := { closure [int] ["async"] [] with optionality := .optional } }]
      effects := ["async"]
      labels_nodup := by decide
      names_nodup := by decide
      result_not_void := by simp }
    let base : Protocol := { name := "Base", methods := [wait] }
    let store : Protocol := { name := "Store", methods := [fetch], inherited := ["Base"] }
    let known := Catalogue.empty.add base
    ∃ mock, ofProtocol .standard known store = .ok mock ∧
      mock.methods.map (·.fields.length) = [4, 3] ∧
      mock.methods.map (·.method) = (store.withInherited known).methods ∧
      ∀ double ∈ mock.methods, double.Mirrors := by
  intro int closure fetch wait base store known
  have hancestry : store.ancestry known =
      { found := [base], listed := ["Base"], visited := ["Base", "Store"] } :=
    calc store.ancestry known
      _ = Ancestry.follow known "Store" []
          { found := [base], listed := ["Base"], visited := ["Base", "Store"] } :=
        Ancestry.follow_of_new (show known.lookup _ = some base from rfl) rfl
      _ = { found := [base], listed := ["Base"], visited := ["Base", "Store"] } := by
        rw [Ancestry.follow]
  have hfields : (ofProtocol .standard known store).toOption.map
      (·.methods.map (·.fields.length)) = some [4, 3] := by
    rw [ofProtocol, Protocol.withInherited, hancestry]
    decide +kernel
  obtain ⟨mock, hmock, hfields⟩ := Option.map_eq_some_iff.mp hfields
  have hmock := Except.toOption_eq_some_iff.mp hmock
  exact ⟨mock, hmock, hfields, mirrors_of_ofProtocol hmock⟩

end Mock

end TestDouble
