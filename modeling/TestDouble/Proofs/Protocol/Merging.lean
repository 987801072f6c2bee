import Mathlib.Data.List.Nodup
import TestDouble.Proofs.Protocol.Refinement

/-!
# What merging keeps

Merging visits exactly the protocols that the inheritance clauses lead to, and of the requirements
that have one key it keeps the first. So a requirement is lost exactly where another one with its
key differs from it. The keys leave out a good deal: methods with one key may have other effects,
generic clauses and `where` clauses, and associated types with one name other constraints.
-/

namespace TestDouble

/-! ## Items with distinct keys -/

section

variable {α κ : Type} [BEq κ] [LawfulBEq κ] {key : α → κ}

theorem mem_of_mem_distinctFrom {seen : List κ} {items : List α} {item : α}
    (h : item ∈ distinctFrom key seen items) : item ∈ items ∧ key item ∉ seen := by
  induction items generalizing seen with
  | nil => cases h
  | cons first items ih =>
    rw [distinctFrom] at h
    split at h
    · obtain ⟨hmem, hnew⟩ := ih h
      exact ⟨List.mem_cons_of_mem _ hmem, hnew⟩
    · next hfirst =>
      rcases List.mem_cons.mp h with rfl | hrest
      · exact ⟨List.mem_cons_self, by simpa using hfirst⟩
      · obtain ⟨hmem, hnew⟩ := ih hrest
        exact ⟨List.mem_cons_of_mem _ hmem, fun hseen ↦ hnew (List.mem_cons_of_mem _ hseen)⟩

theorem exists_mem_distinctFrom {seen : List κ} {items : List α} {item : α} (h : item ∈ items)
    (hnew : key item ∉ seen) : ∃ kept ∈ distinctFrom key seen items, key kept = key item := by
  induction items generalizing seen with
  | nil => cases h
  | cons first items ih =>
    rw [distinctFrom]
    by_cases hkey : key first = key item
    · rw [hkey, if_neg (by simpa using hnew)]
      exact ⟨first, List.mem_cons_self, hkey⟩
    · have hmem : item ∈ items := (List.mem_cons.mp h).resolve_left fun heq ↦ hkey (heq ▸ rfl)
      split
      · exact ih hmem hnew
      · have hnew' : key item ∉ key first :: seen := by
          rw [List.mem_cons, not_or]
          exact ⟨Ne.symm hkey, hnew⟩
        obtain ⟨kept, hkept, heq⟩ := ih hmem hnew'
        exact ⟨kept, List.mem_cons_of_mem _ hkept, heq⟩

theorem nodup_map_distinctFrom (seen : List κ) (items : List α) :
    ((distinctFrom key seen items).map key).Nodup := by
  induction items generalizing seen with
  | nil => exact List.nodup_nil
  | cons first items ih =>
    rw [distinctFrom]
    split
    · exact ih seen
    · rw [List.map_cons, List.nodup_cons]
      refine ⟨fun hmem ↦ ?_, ih _⟩
      obtain ⟨item, hitem, hkey⟩ := List.mem_map.mp hmem
      exact (mem_of_mem_distinctFrom hitem).2 (hkey ▸ List.mem_cons_self)

/-- Nothing is lost, up to what is looked at, where that depends on the key. -/
theorem forall_exists_mem_distinctBy_iff {β : Type} {look : α → β} {items : List α}
    (hkey : ∀ item item', look item = look item' → key item = key item') :
    (∀ item ∈ items, ∃ kept ∈ distinctBy key items, look kept = look item) ↔
      ∀ item ∈ items, ∀ item' ∈ items, key item = key item' → look item = look item' := by
  constructor
  · intro h item hitem item' hitem' heq
    obtain ⟨kept, hkept, hlook⟩ := h item hitem
    obtain ⟨kept', hkept', hlook'⟩ := h item' hitem'
    have hsame : kept = kept' :=
      List.inj_on_of_nodup_map (nodup_map_distinctFrom [] items) hkept hkept' <|
        (hkey _ _ hlook).trans (heq.trans (hkey _ _ hlook').symm)
    rw [← hlook, ← hlook', hsame]
  · intro h item hitem
    have hnew : key item ∉ ([] : List κ) := List.not_mem_nil
    obtain ⟨kept, hkept, heq⟩ := exists_mem_distinctFrom hitem hnew
    exact ⟨kept, hkept, h kept (mem_of_mem_distinctFrom hkept).1 item hitem heq⟩

end

/-! ## Protocols that are visited -/

variable {known : Catalogue} {protocol declaring parent : Protocol}

/-- The protocol itself, and what the inheritance clauses lead to from there. The name of the
protocol always means the protocol itself. -/
inductive Contributes (known : Catalogue) (protocol : Protocol) : Protocol → Prop
  | self : Contributes known protocol protocol
  | refined {declaring parent : Protocol} {name : String} :
      Contributes known protocol declaring → name ∈ declaring.inherited → name ≠ protocol.name →
      known.lookup name = some parent → Contributes known protocol parent

/-- The name is mentioned in an inheritance clause that counts. -/
def Mentioned (known : Catalogue) (protocol : Protocol) (name : String) : Prop :=
  ∃ declaring, Contributes known protocol declaring ∧ name ∈ declaring.inherited

namespace Ancestry

variable {name : String} {agenda : List String} {ancestry : Ancestry}

/-- What holds while the agenda is worked off: visited is what was found, and what is mentioned
there has been visited as well or will be. -/
structure Explores (known : Catalogue) (protocol : Protocol) (agenda : List String)
    (ancestry : Ancestry) : Prop where
  self_visited : protocol.name ∈ ancestry.visited
  found_contributes : ∀ parent ∈ ancestry.found, Contributes known protocol parent
  agenda_mentioned : ∀ name ∈ agenda, Mentioned known protocol name
  visited_found : ∀ name ∈ ancestry.visited, name ≠ protocol.name →
    ∃ parent ∈ ancestry.found, known.lookup name = some parent
  mentioned_followed : ∀ declaring ∈ protocol :: ancestry.found, ∀ name ∈ declaring.inherited,
    name ∈ agenda ∨ name ∈ ancestry.visited ∨ known.lookup name = none

@[simp] theorem found_mention (ancestry : Ancestry) (self name : String) :
    (ancestry.mention self name).found = ancestry.found := by
  rw [mention]
  exact (apply_ite found _ _ _).trans (ite_self _)

theorem Explores.initial (known : Catalogue) (protocol : Protocol) :
    Explores known protocol protocol.inherited { visited := [protocol.name] } where
  self_visited := List.mem_singleton_self _
  found_contributes _ h := (List.not_mem_nil h).elim
  agenda_mentioned _ h := ⟨protocol, .self, h⟩
  visited_found _ h hne := (hne (List.mem_singleton.mp h)).elim
  mentioned_followed declaring h name hname := by
    rw [List.mem_singleton] at h
    exact .inl (h ▸ hname)

/-- A name leads to a protocol that was not visited. -/
theorem Explores.visit (h : Explores known protocol (name :: agenda) ancestry)
    (hknown : known.lookup name = some parent) (hnew : name ∉ ancestry.visited) :
    Explores known protocol (parent.inherited ++ agenda)
      (ancestry.visit protocol.name name parent) := by
  obtain ⟨⟨declaring, hdeclaring, hname⟩, hagenda⟩ := List.forall_mem_cons.mp h.agenda_mentioned
  have hother : name ≠ protocol.name := fun heq ↦ hnew (heq ▸ h.self_visited)
  have hparent : Contributes known protocol parent := .refined hdeclaring hname hother hknown
  have hfound : (ancestry.visit protocol.name name parent).found = ancestry.found ++ [parent] := by
    simp [Ancestry.visit]
  have hvisited :
      (ancestry.visit protocol.name name parent).visited = name :: ancestry.visited := by
    simp [Ancestry.visit]
  constructor
  case self_visited =>
    rw [hvisited]
    exact List.mem_cons_of_mem _ h.self_visited
  case found_contributes =>
    rw [hfound]
    exact List.forall_mem_append.mpr ⟨h.found_contributes, by simpa using hparent⟩
  case agenda_mentioned =>
    exact List.forall_mem_append.mpr ⟨fun _ hmem ↦ ⟨parent, hparent, hmem⟩, hagenda⟩
  case visited_found =>
    rw [hvisited, hfound]
    intro other hmem hne
    rcases List.mem_cons.mp hmem with rfl | hmem
    · exact ⟨parent, List.mem_append_right _ (List.mem_singleton_self _), hknown⟩
    · obtain ⟨found, hmem, hlookup⟩ := h.visited_found other hmem hne
      exact ⟨found, List.mem_append_left _ hmem, hlookup⟩
  case mentioned_followed =>
    rw [hvisited, hfound]
    intro declaring hmem other hother
    -- The clauses of the old protocols are followed as before. The new one waits in front.
    rw [← List.cons_append] at hmem
    rcases List.mem_append.mp hmem with hold | hlast
    · rcases h.mentioned_followed declaring hold other hother with hlater | hvisited | hnone
      · rcases List.mem_cons.mp hlater with rfl | hlater
        · exact .inr (.inl List.mem_cons_self)
        · exact .inl (List.mem_append_right _ hlater)
      · exact .inr (.inl (List.mem_cons_of_mem _ hvisited))
      · exact .inr (.inr hnone)
    · rw [List.mem_singleton] at hlast
      exact .inl (List.mem_append_left _ (hlast ▸ hother))

/-- A name leads nowhere, or to a protocol that was visited. -/
theorem Explores.mention (h : Explores known protocol (name :: agenda) ancestry)
    (hold : known.lookup name = none ∨ name ∈ ancestry.visited) :
    Explores known protocol agenda (ancestry.mention protocol.name name) := by
  constructor
  case self_visited =>
    rw [visited_mention]
    exact h.self_visited
  case found_contributes =>
    rw [found_mention]
    exact h.found_contributes
  case agenda_mentioned => exact (List.forall_mem_cons.mp h.agenda_mentioned).2
  case visited_found =>
    rw [visited_mention, found_mention]
    exact h.visited_found
  case mentioned_followed =>
    rw [visited_mention, found_mention]
    intro declaring hmem other hother
    rcases h.mentioned_followed declaring hmem other hother with hlater | hvisited
    · rcases List.mem_cons.mp hlater with rfl | hlater
      · exact .inr hold.symm
      · exact .inl hlater
    · exact .inr hvisited

theorem Explores.follow (h : Explores known protocol agenda ancestry) :
    Explores known protocol [] (follow known protocol.name agenda ancestry) := by
  fun_induction Ancestry.follow known protocol.name agenda ancestry with
  | case1 ancestry => exact h
  | case2 name agenda ancestry parent hknown hnew =>
    rename_i ih
    exact ih (h.visit hknown (by simpa using hnew))
  | case3 name agenda ancestry hold ih =>
    refine ih (h.mention ?_)
    rcases hknown : known.lookup name with _ | parent
    · exact .inl rfl
    · exact .inr (by simpa using hold parent hknown)

end Ancestry

/-- The protocols whose requirements are merged are those that the clauses lead to. -/
theorem mem_declared_iff :
    declaring ∈ protocol :: (protocol.ancestry known).found ↔
      Contributes known protocol declaring := by
  have h : Ancestry.Explores known protocol [] (protocol.ancestry known) :=
    (Ancestry.Explores.initial known protocol).follow
  constructor
  · intro hmem
    rcases List.mem_cons.mp hmem with rfl | hfound
    · exact .self
    · exact h.found_contributes declaring hfound
  · intro hcontributes
    induction hcontributes with
    | self => exact List.mem_cons_self
    | @refined declaring parent name _ hname hother hknown ih =>
      -- the name is on no agenda any more and stands for a known protocol, so it was visited
      rcases h.mentioned_followed declaring ih name hname with hlater | hvisited | hnone
      · cases hlater
      · obtain ⟨found, hfound, hlookup⟩ := h.visited_found name hvisited hother
        obtain rfl := Option.some.inj (hknown.symm.trans hlookup)
        exact List.mem_cons_of_mem _ hfound
      · rw [hknown] at hnone
        cases hnone

/-! ## Requirements that are kept -/

/-- The requirement is one that merging should keep. -/
def Declared {α : Type} (known : Catalogue) (protocol : Protocol) (part : Protocol → List α)
    (item : α) : Prop :=
  ∃ declaring, Contributes known protocol declaring ∧ item ∈ part declaring

theorem mem_flatMap_declared_iff {α : Type} {part : Protocol → List α} {item : α} :
    item ∈ (protocol :: (protocol.ancestry known).found).flatMap part ↔
      Declared known protocol part item := by
  rw [List.mem_flatMap]
  simp only [mem_declared_iff, Declared]

/-- Whatever is declared by the protocol or by one that it refines is kept, as far as one looks at
it, if and only if that is the same for all that have one key. -/
theorem forall_declared_kept_iff {α κ β : Type} [BEq κ] [LawfulBEq κ] {key : α → κ} {look : α → β}
    (part : Protocol → List α)
    (hkey : ∀ item item', look item = look item' → key item = key item') :
    (∀ item, Declared known protocol part item → ∃ kept ∈
        distinctBy key ((protocol :: (protocol.ancestry known).found).flatMap part),
        look kept = look item) ↔
      ∀ item item', Declared known protocol part item → Declared known protocol part item' →
        key item = key item' → look item = look item' := by
  simp only [← mem_flatMap_declared_iff]
  rw [forall_exists_mem_distinctBy_iff hkey]
  exact ⟨fun h item item' hitem hitem' ↦ h item hitem item' hitem',
    fun h item hitem item' hitem' ↦ h item item' hitem hitem'⟩

/-- No requirement of the protocol or of those it refines is lost, lines aside, if and only if those
with one key agree in all that they say. -/
theorem withInherited_keeps_iff (known : Catalogue) (protocol : Protocol) :
    ((∀ method, Declared known protocol (·.methods) method →
        ∃ kept ∈ (protocol.withInherited known).methods, kept.unlined = method.unlined) ∧
      (∀ property, Declared known protocol (·.properties) property →
        ∃ kept ∈ (protocol.withInherited known).properties, kept.unlined = property.unlined) ∧
      ∀ type, Declared known protocol (·.associatedTypes) type →
        ∃ kept ∈ (protocol.withInherited known).associatedTypes, kept = type) ↔
      (∀ method method', Declared known protocol (·.methods) method →
        Declared known protocol (·.methods) method' → method.identity = method'.identity →
        method.unlined = method'.unlined) ∧
      (∀ property property', Declared known protocol (·.properties) property →
        Declared known protocol (·.properties) property' →
        property.identity = property'.identity → property.unlined = property'.unlined) ∧
      ∀ type type', Declared known protocol (·.associatedTypes) type →
        Declared known protocol (·.associatedTypes) type' → type.name = type'.name →
        type = type' := by
  refine and_congr ?_ (and_congr ?_ ?_)
  · exact forall_declared_kept_iff _ fun _ _ h ↦
      (congrArg (fun method : Method ↦ method.identity) h :)
  · exact forall_declared_kept_iff _ fun _ _ h ↦ (congrArg Property.identity h :)
  · have hname (type type' : AssociatedType) (h : id type = id type') : type.name = type'.name :=
      congrArg AssociatedType.name h
    exact forall_declared_kept_iff _ hname

/-- Methods that differ in their effects only have one key, and the second one is lost. -/
theorem not_forall_declared_kept : ¬ ∀ (known : Catalogue) (protocol : Protocol) (method : Method),
    Declared known protocol (·.methods) method →
      ∃ kept ∈ (protocol.withInherited known).methods, kept.unlined = method.unlined := by
  intro h
  let run (effects : List String) : Method := {
    name := "run"
    effects := effects
    labels_nodup := by decide
    names_nodup := by decide
    result_not_void := by simp }
  let store : Protocol := { name := "Store", methods := [run [], run ["async"]] }
  have hdeclared : Declared .empty store (·.methods) (run ["async"]) :=
    ⟨store, .self, List.mem_cons_of_mem _ (List.mem_singleton_self _)⟩
  obtain ⟨kept, hkept, hunlined⟩ := h .empty store (run ["async"]) hdeclared
  have hmerged : (store.withInherited .empty).methods = [run []] := by
    rw [Protocol.withInherited, Protocol.ancestry, Ancestry.follow]
    rfl
  rw [hmerged, List.mem_singleton] at hkept
  have heffects := congrArg (fun method : Method ↦ method.effects) hunlined
  rw [hkept] at heffects
  cases heffects

end TestDouble
