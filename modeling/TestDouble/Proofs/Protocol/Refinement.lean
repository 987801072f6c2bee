import TestDouble.Proofs.Protocol.Alike
import TestDouble.Protocol.Refinement

/-!
# What refinement depends on

Following inheritance clauses looks up the names that the clauses lead to and no others. Catalogues
that agree on these, up to lines, give one protocol the same requirements, and how the rest of a
catalogue came about is of no influence.
-/

namespace TestDouble

variable {known known' : Catalogue} {protocol protocol' : Protocol}

/-! ## Names that are reached -/

namespace Catalogue

/-- The names that the inheritance clauses lead to, from those of the protocol on. -/
inductive Reaches (known : Catalogue) (protocol : Protocol) : String → Prop
  | mentioned {name : String} : name ∈ protocol.inherited → Reaches known protocol name
  | refined {name next : String} {parent : Protocol} : Reaches known protocol name →
      known.lookup name = some parent → next ∈ parent.inherited → Reaches known protocol next

theorem not_reaches {name : String} (h : protocol.inherited = []) :
    ¬ known.Reaches protocol name := by
  intro hname
  induction hname with
  | mentioned hmem =>
    rw [h] at hmem
    cases hmem
  | refined _ _ _ ih => exact ih

/-- The catalogues have the same protocol under the name, up to lines, or both have none. -/
def AgreeAt (known known' : Catalogue) (name : String) : Prop :=
  (known.lookup name).map Protocol.unlined = (known'.lookup name).map Protocol.unlined

end Catalogue

theorem Protocol.inherited_eq (h : protocol.unlined = protocol'.unlined) :
    protocol.inherited = protocol'.inherited :=
  congrArg (·.inherited) h

theorem Protocol.name_eq (h : protocol.unlined = protocol'.unlined) :
    protocol.name = protocol'.name :=
  congrArg (·.name) h

/-! ## Visiting -/

namespace Ancestry

variable {self name : String} {agenda : List String} {ancestry ancestry' : Ancestry}

/-- What was met, without lines. -/
def unlined (ancestry : Ancestry) : Ancestry :=
  { ancestry with found := ancestry.found.map Protocol.unlined }

/-- The ancestry after a visit to a protocol under the given name. -/
def visit (ancestry : Ancestry) (self name : String) (parent : Protocol) : Ancestry :=
  { ancestry.mention self name with
    found := (ancestry.mention self name).found ++ [parent]
    visited := name :: (ancestry.mention self name).visited }

theorem follow_of_new {parent : Protocol} (hknown : known.lookup name = some parent)
    (hnew : ancestry.visited.contains name = false) :
    follow known self (name :: agenda) ancestry =
      follow known self (parent.inherited ++ agenda) (ancestry.visit self name parent) := by
  rw [follow]
  split
  · next hknown' _ =>
    obtain rfl := Option.some.inj (hknown.symm.trans hknown')
    rfl
  · next hnot => exact absurd hnew (hnot parent hknown)

theorem follow_of_old (h : known.lookup name = none ∨ ancestry.visited.contains name = true) :
    follow known self (name :: agenda) ancestry =
      follow known self agenda (ancestry.mention self name) := by
  rw [follow]
  split
  · next hknown hnew =>
    rw [hknown, hnew] at h
    simp at h
  · rfl

theorem unlined_mention (ancestry : Ancestry) (self name : String) :
    (ancestry.mention self name).unlined = ancestry.unlined.mention self name := by
  rw [mention, mention]
  exact apply_ite unlined _ _ _

private theorem unlined_visit (ancestry : Ancestry) (self name : String) (parent : Protocol) :
    (ancestry.visit self name parent).unlined =
      ancestry.unlined.visit self name parent.unlined := by
  rw [visit, visit, ← unlined_mention]
  simp [unlined]

/-- A visit depends on the protocols under the names that are reached. -/
theorem unlined_follow_eq {reached : String → Prop}
    (hclosed : ∀ name parent, reached name → known.lookup name = some parent →
      ∀ next ∈ parent.inherited, reached next)
    (hagree : ∀ name, reached name → known.AgreeAt known' name)
    (hagenda : ∀ name ∈ agenda, reached name) (h : ancestry.unlined = ancestry'.unlined) :
    (follow known self agenda ancestry).unlined =
      (follow known' self agenda ancestry').unlined := by
  fun_induction follow known self agenda ancestry generalizing ancestry' with
  | case1 ancestry => rwa [follow]
  | case2 name agenda ancestry parent hknown hnew =>
    rename_i ih
    obtain ⟨hname, hrest⟩ := List.forall_mem_cons.mp hagenda
    have hvisited : ancestry.visited = ancestry'.visited := congrArg (·.visited) h
    have hagreed := hagree name hname
    rw [Catalogue.AgreeAt, hknown] at hagreed
    obtain ⟨parent', hknown', hparent⟩ := Option.map_eq_some_iff.mp hagreed.symm
    rw [follow_of_new hknown' (by rwa [← hvisited]), Protocol.inherited_eq hparent]
    refine ih (List.forall_mem_append.mpr ⟨hclosed name parent hname hknown, hrest⟩) ?_
    calc (ancestry.visit self name parent).unlined
        = ancestry.unlined.visit self name parent.unlined := unlined_visit ..
      _ = (ancestry'.visit self name parent').unlined := by rw [h, ← hparent, unlined_visit]
  | case3 name agenda ancestry hold ih =>
    obtain ⟨hname, hrest⟩ := List.forall_mem_cons.mp hagenda
    have hvisited : ancestry.visited = ancestry'.visited := congrArg (·.visited) h
    have hagreed := hagree name hname
    rw [follow_of_old]
    · exact ih hrest (by rw [unlined_mention, unlined_mention, h])
    · rcases hknown : known.lookup name with _ | parent
      · rw [Catalogue.AgreeAt, hknown] at hagreed
        exact .inl (Option.map_eq_none_iff.mp hagreed.symm)
      · rw [← hvisited]
        exact .inr (by simpa using hold parent hknown)

end Ancestry

/-! ## Merging -/

private theorem map_distinctFrom {α κ : Type} [BEq κ] {key : α → κ} {f : α → α}
    (hf : ∀ item, key (f item) = key item) (seen : List κ) (items : List α) :
    (distinctFrom key seen items).map f = distinctFrom key seen (items.map f) := by
  induction items generalizing seen with
  | nil => rfl
  | cons item items ih =>
    rw [List.map_cons, distinctFrom, distinctFrom, hf]
    split
    · exact ih seen
    · rw [List.map_cons, ih]

/-- A change that leaves keys alone may come before or after merging. -/
theorem map_distinctBy_flatMap {α β κ : Type} [BEq κ] {key : β → κ} {f : α → α} {g : β → β}
    {part : α → List β} (hkey : ∀ item, key (g item) = key item)
    (hpart : ∀ whole, part (f whole) = (part whole).map g) (wholes : List α) :
    (distinctBy key (wholes.flatMap part)).map g =
      distinctBy key ((wholes.map f).flatMap part) := by
  rw [distinctBy, distinctBy, map_distinctFrom hkey, List.map_flatMap, List.flatMap_map]
  simp only [hpart]

namespace Protocol

/-- Lines may be left out before or after merging. -/
theorem unlined_withInherited (known : Catalogue) (protocol : Protocol) :
    (protocol.withInherited known).unlined =
      let declared := (protocol :: (protocol.ancestry known).found).map unlined
      { protocol.unlined with
        methods := distinctBy (·.identity) (declared.flatMap (·.methods))
        properties := distinctBy (·.identity) (declared.flatMap (·.properties))
        associatedTypes := distinctBy (·.name) (declared.flatMap (·.associatedTypes))
        inherited := (protocol.ancestry known).listed } := by
  simp only [withInherited, unlined, Protocol.mk.injEq, true_and, and_true]
  generalize protocol :: (protocol.ancestry known).found = declared
  refine ⟨?_, ?_, ?_⟩
  · refine map_distinctBy_flatMap ?_ ?_ declared <;> exact fun _ ↦ rfl
  · refine map_distinctBy_flatMap ?_ ?_ declared <;> exact fun _ ↦ rfl
  · rw [List.flatMap_map]
    rfl

/-- A protocol requires the same wherever the names it reaches stand for the same. -/
theorem unlined_withInherited_eq (h : protocol.unlined = protocol'.unlined)
    (hagree : ∀ name, known.Reaches protocol name → known.AgreeAt known' name) :
    (protocol.withInherited known).unlined = (protocol'.withInherited known').unlined := by
  have hancestry : (protocol.ancestry known).unlined = (protocol'.ancestry known').unlined := by
    rw [ancestry, ancestry, ← name_eq h, ← inherited_eq h]
    exact Ancestry.unlined_follow_eq (fun _ _ hname hknown _ hnext ↦ .refined hname hknown hnext)
      hagree (fun _ hname ↦ .mentioned hname) rfl
  have hfound : (protocol :: (protocol.ancestry known).found).map unlined =
      (protocol' :: (protocol'.ancestry known').found).map unlined := by
    rw [List.map_cons, List.map_cons, h]
    exact congrArg (_ :: ·.found) hancestry
  have hlisted : (protocol.ancestry known).listed = (protocol'.ancestry known').listed :=
    congrArg (·.listed) hancestry
  rw [unlined_withInherited, unlined_withInherited, hfound, hlisted, h]

end Protocol

/-! ## Protocols that are not looked up -/

/-- What a name stands for that has been visited is of no influence. -/
theorem Ancestry.follow_eq_of_unvisited {self : String} {agenda : List String} {ancestry : Ancestry}
    (h : ∀ name, name ∉ ancestry.visited → known.lookup name = known'.lookup name) :
    follow known self agenda ancestry = follow known' self agenda ancestry := by
  fun_induction Ancestry.follow known self agenda ancestry with
  | case1 ancestry => rw [follow]
  | case2 name agenda ancestry parent hknown hnew =>
    rename_i ih
    have hname : name ∉ ancestry.visited := by simpa using hnew
    rw [follow_of_new ((h name hname).symm.trans hknown) hnew]
    refine ih fun other hother ↦ h other fun hvisited ↦ hother ?_
    rw [visited_mention]
    exact List.mem_cons_of_mem _ hvisited
  | case3 name agenda ancestry hold ih =>
    rw [follow_of_old]
    · exact ih fun other hother ↦ h other (by simpa using hother)
    · by_cases hname : name ∈ ancestry.visited
      · exact .inr (by simpa using hname)
      · rw [← h name hname]
        rcases hknown : known.lookup name with _ | parent
        · exact .inl rfl
        · exact .inr (by simpa using hold parent hknown)

/-- A protocol is visited before all others, so it adds nothing to what it refines itself, even
where it is named in its own inheritance clause. -/
theorem Protocol.withInherited_add_self (known : Catalogue) (protocol : Protocol) :
    protocol.withInherited (known.add protocol) = protocol.withInherited known := by
  have hancestry : protocol.ancestry (known.add protocol) = protocol.ancestry known := by
    refine Ancestry.follow_eq_of_unvisited fun name hname ↦ ?_
    rw [List.mem_singleton] at hname
    rw [Catalogue.add, List.lookup_cons, beq_false_of_ne hname]
  rw [withInherited, withInherited, hancestry]

end TestDouble
