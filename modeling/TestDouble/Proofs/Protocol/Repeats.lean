import TestDouble.Proofs.Mock.Members
import TestDouble.Proofs.Protocol.Merging

/-!
# Requirements that are kept twice

The key of a method has its parameters as they are declared, and with them the names that they go by
inside the method. The key of a property has the setter. So two requirements that no type can meet
separately may have two keys, and then both are kept: a method that is declared again with other
names inside, and a property that can be read in one protocol and set in another.

A method of that kind is overridden twice. A property of that kind leads to a repeated member, and
its protocol has no test double.
-/

namespace TestDouble

/-! ## Requirements seen from outside -/

/-- The parameter as callers see it. -/
def Parameter.called (parameter : Parameter) : Parameter :=
  { parameter with name := "", label? := some parameter.label }

/-- The method as callers see it. -/
def Method.Draft.called (draft : Draft) : Draft :=
  { draft with parameters := draft.parameters.map Parameter.called, line? := none }

/-- The property as it is read. -/
def Property.getter (property : Property) : Property :=
  { property with hasSetter := false, line? := none }

/-! ## What keys tell apart -/

namespace Parameter

variable {parameter parameter' : Parameter}

/-- The label and the name of a parameter in front of its type. -/
def names (label name : String) : String :=
  if label = name then name else s!"{label} {name}"

theorem names_injective (label : String) : Function.Injective (names label) := by
  -- A label with a name behind it is longer than the label.
  have hne (name : String) : s!"{label} {name}" ≠ label := by
    intro h
    have hlength := congrArg String.length h
    simp only [toString, String.length_append] at hlength
    have hblank : " ".length = 1 := rfl
    omega
  intro name name' h
  rw [names, names] at h
  split at h <;> split at h
  · exact h
  · next heq _ => exact (hne name' (heq.trans h).symm).elim
  · next _ heq => exact (hne name (h.trans heq.symm)).elim
  · exact String.append_right_inj _ |>.mp h

private theorem declaration_eq (parameter : Parameter) :
    parameter.declaration = names parameter.label parameter.name ++ ": " ++
      parameter.type.declared ++ if parameter.isVariadic then "..." else "" := by
  rw [declaration, label, names]
  cases parameter.label? with
  | none => simp [toString]
  | some label =>
    by_cases h : label = parameter.name <;> simp [toString, h]

theorem declaration_eq_iff (h : parameter.called = parameter'.called) :
    parameter.declaration = parameter'.declaration ↔ parameter.name = parameter'.name := by
  have hlabel : parameter.label = parameter'.label := Option.some.inj (congrArg label? h)
  have htype : parameter.type = parameter'.type := (congrArg type h :)
  have hvariadic : parameter.isVariadic = parameter'.isVariadic := (congrArg isVariadic h :)
  rw [declaration_eq, declaration_eq, hlabel, htype, hvariadic]
  simp only [String.append_left_inj]
  exact (names_injective _).eq_iff

theorem map_declaration_eq_iff {parameters parameters' : List Parameter}
    (h : parameters.map called = parameters'.map called) :
    parameters.map declaration = parameters'.map declaration ↔
      parameters.map name = parameters'.map name := by
  induction parameters generalizing parameters' with
  | nil =>
    obtain rfl := List.map_eq_nil_iff.mp h.symm
    rfl
  | cons parameter parameters ih =>
    obtain ⟨parameter', parameters', rfl, hparameter, hparameters⟩ :=
      List.map_eq_cons_iff.mp h.symm
    simp only [List.map_cons, List.cons.injEq, declaration_eq_iff hparameter.symm,
      ih hparameters.symm]

end Parameter

/-- Methods that are called in the same way have one key if the names inside are the same. -/
theorem Method.Draft.identity_eq_iff {draft draft' : Draft} (h : draft.called = draft'.called) :
    draft.identity = draft'.identity ↔
      draft.parameters.map (·.name) = draft'.parameters.map (·.name) := by
  have hstatic : draft.isStatic = draft'.isStatic := (congrArg isStatic h :)
  have hname : draft.name = draft'.name := (congrArg name h :)
  have hresult : draft.result? = draft'.result? := (congrArg result? h :)
  rw [← Parameter.map_declaration_eq_iff (congrArg parameters h), identity, identity, hstatic,
    hname, hresult]
  simp

theorem Property.identity_eq_iff {property property' : Property}
    (h : property.getter = property'.getter) :
    property.identity = property'.identity ↔ property.hasSetter = property'.hasSetter := by
  have hstatic : property.isStatic = property'.isStatic := (congrArg isStatic h :)
  have hname : property.name = property'.name := (congrArg name h :)
  have htype : property.type = property'.type := (congrArg type h :)
  rw [identity, identity, hstatic, hname, htype]
  simp

/-! ## What is kept -/

variable {known : Catalogue} {protocol : Protocol}

section

variable {α κ : Type} [BEq κ] [LawfulBEq κ] {key : α → κ} {part : Protocol → List α}

private theorem exists_kept (key : α → κ) {item : α} (h : Declared known protocol part item) :
    ∃ kept ∈ distinctBy key ((protocol :: (protocol.ancestry known).found).flatMap part),
      key kept = key item :=
  exists_mem_distinctFrom (mem_flatMap_declared_iff.mpr h) List.not_mem_nil

private theorem pairwise_distinctBy (key : α → κ) (items : List α) :
    (distinctBy key items).Pairwise fun item item' ↦ key item ≠ key item' :=
  List.pairwise_map.mp (nodup_map_distinctFrom [] items)

/-- Of the items that look the same, those are kept apart that differ in the rest of their keys. -/
theorem kept_twice {β γ : Type} {look : α → β} {rest : α → γ}
    (hkey : ∀ item item', look item = look item' →
      (key item = key item' ↔ rest item = rest item')) :
    let kept := distinctBy key ((protocol :: (protocol.ancestry known).found).flatMap part)
    (kept.Pairwise fun item item' ↦ look item = look item' → rest item ≠ rest item') ∧
      ∀ item item', Declared known protocol part item → Declared known protocol part item' →
        look item = look item' → rest item ≠ rest item' →
        ∃ first ∈ kept, ∃ second ∈ kept, key first = key item ∧ key second = key item' ∧
          key first ≠ key second := by
  refine ⟨(pairwise_distinctBy key _).imp fun hne hlook ↦ mt (hkey _ _ hlook).mpr hne, ?_⟩
  intro item item' hitem hitem' hlook hrest
  obtain ⟨first, hfirst, hfirstkey⟩ := exists_kept key hitem
  obtain ⟨second, hsecond, hsecondkey⟩ := exists_kept key hitem'
  refine ⟨first, hfirst, second, hsecond, hfirstkey, hsecondkey, ?_⟩
  rw [hfirstkey, hsecondkey]
  exact mt (hkey _ _ hlook).mp hrest

end

private theorem exists_kept_property {property : Property}
    (h : Declared known protocol (·.properties) property) :
    ∃ kept ∈ (protocol.withInherited known).properties, kept.identity = property.identity :=
  exists_kept _ h

/-- There is no test double where a property comes up with two keys. -/
theorem ofProtocol_ne_ok_of_refined {property property' : Property}
    (hproperty : Declared known protocol (·.properties) property)
    (hproperty' : Declared known protocol (·.properties) property')
    (hname : property.name = property'.name) (hne : property.identity ≠ property'.identity)
    (style : Style) (mock : Mock) : Mock.ofProtocol style known protocol ≠ .ok mock := by
  intro hmock
  have hmerged : mock.properties = (protocol.withInherited known).properties := by
    obtain ⟨_, -, rfl, -⟩ := Mock.ofProtocol_eq_ok_iff.mp hmock
    rfl
  -- Properties that are kept both have one name, and a test double has each name once.
  have hnodup := Mock.nodup_map_name_properties (Mock.fields_nodup hmock)
  rw [hmerged] at hnodup
  obtain ⟨first, hfirst, hfirstkey⟩ := exists_kept_property hproperty
  obtain ⟨second, hsecond, hsecondkey⟩ := exists_kept_property hproperty'
  have hnames : first.name = second.name :=
    calc first.name
      _ = property.name := (congrArg Property.Identity.name hfirstkey :)
      _ = property'.name := hname
      _ = second.name := (congrArg Property.Identity.name hsecondkey.symm :)
  obtain rfl := List.inj_on_of_nodup_map hnodup hfirst hsecond hnames
  exact hne (hfirstkey.symm.trans hsecondkey)

/-! ## What is declared again -/

namespace Repeats

/-- A method that goes by `put(_:)`, with a name inside. -/
def put (name : String) : Method where
  name := "put"
  parameters := [{ name := name, label? := some "_", type := { base := "Int" } }]
  labels_nodup := List.nodup_nil
  names_nodup := List.nodup_singleton name
  result_not_void := by simp

/-- A property that can be set or not. -/
def size (hasSetter : Bool) : Property where
  name := "size"
  type := { base := "Int" }
  hasSetter := hasSetter

end Repeats

open Repeats

/-- Methods that are called in the same way are kept both if and only if they have other names
inside, and properties that are read in the same way if and only if one has a setter. -/
theorem withInherited_repeats (known : Catalogue) (protocol : Protocol) :
    let merged := protocol.withInherited known
    ((merged.methods.Pairwise fun method method' ↦ method.called = method'.called →
        method.parameters.map (·.name) ≠ method'.parameters.map (·.name)) ∧
      ∀ method method', Declared known protocol (·.methods) method →
        Declared known protocol (·.methods) method' → method.called = method'.called →
        method.parameters.map (·.name) ≠ method'.parameters.map (·.name) →
        ∃ first ∈ merged.methods, ∃ second ∈ merged.methods, first.identity = method.identity ∧
          second.identity = method'.identity ∧ first.identity ≠ second.identity) ∧
    (merged.properties.Pairwise fun property property' ↦ property.getter = property'.getter →
        property.hasSetter ≠ property'.hasSetter) ∧
      ∀ property property', Declared known protocol (·.properties) property →
        Declared known protocol (·.properties) property' → property.getter = property'.getter →
        property.hasSetter ≠ property'.hasSetter →
        ∃ first ∈ merged.properties, ∃ second ∈ merged.properties,
          first.identity = property.identity ∧ second.identity = property'.identity ∧
          first.identity ≠ second.identity :=
  have hmethod (method method' : Method) (h : method.called = method'.called) :=
    Method.Draft.identity_eq_iff h
  have hproperty (property property' : Property) (h : property.getter = property'.getter) :=
    Property.identity_eq_iff h
  ⟨kept_twice hmethod, kept_twice hproperty⟩

/-- A protocol refines another one, whose method it declares with another name inside and whose
property it gives a setter. -/
theorem withInherited_repeats_refined :
    let base : Protocol := { name := "Base", methods := [put "item"], properties := [size false] }
    let store : Protocol := {
      name := "Store"
      methods := [put "value"]
      properties := [size true]
      inherited := ["Base"] }
    let merged := store.withInherited (Catalogue.empty.add base)
    (∃ first ∈ merged.methods, ∃ second ∈ merged.methods,
      first.identity = (put "item").identity ∧ second.identity = (put "value").identity ∧
        first.identity ≠ second.identity) ∧
    ∃ first ∈ merged.properties, ∃ second ∈ merged.properties,
      first.identity = (size false).identity ∧ second.identity = (size true).identity ∧
        first.identity ≠ second.identity := by
  intro base store merged
  have hbase : Contributes (Catalogue.empty.add base) store base :=
    .refined .self (List.mem_singleton_self "Base") (by decide) rfl
  obtain ⟨⟨-, hmethods⟩, -, hproperties⟩ :=
    withInherited_repeats (Catalogue.empty.add base) store
  constructor
  · exact hmethods (put "item") (put "value") ⟨base, hbase, List.mem_singleton_self _⟩
      ⟨store, .self, List.mem_singleton_self _⟩ rfl (by simp [put])
  · exact hproperties (size false) (size true) ⟨base, hbase, List.mem_singleton_self _⟩
      ⟨store, .self, List.mem_singleton_self _⟩ rfl (by simp [size])

/-- Two methods with one label and two names inside are kept both, and so is a property with and
without a setter. -/
theorem not_forall_kept_once :
    (¬ ∀ (known : Catalogue) (protocol : Protocol), (protocol.withInherited known).methods.Pairwise
      fun method method' ↦ method.called ≠ method'.called) ∧
    ¬ ∀ (known : Catalogue) (protocol : Protocol),
      (protocol.withInherited known).properties.Pairwise
        fun property property' ↦ property.getter ≠ property'.getter := by
  let store : Protocol := {
    name := "Store"
    methods := [put "item", put "value"]
    properties := [size false, size true] }
  have hmerged : store.withInherited .empty = store := by
    rw [Protocol.withInherited, Protocol.ancestry, Ancestry.follow]
    rfl
  refine ⟨fun h ↦ ?_, fun h ↦ ?_⟩
  · have hpair := h .empty store
    rw [hmerged] at hpair
    exact List.rel_of_pairwise_cons hpair (List.mem_singleton_self (put "value")) rfl
  · have hpair := h .empty store
    rw [hmerged] at hpair
    exact List.rel_of_pairwise_cons hpair (List.mem_singleton_self (size true)) rfl

end TestDouble
