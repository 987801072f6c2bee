import Mathlib.Data.Set.Insert
import TestDouble.Proofs.Mock.Members
import TestDouble.Proofs.Protocol.Merging

/-!
# Merging goes depth first

A name in an inheritance clause is followed with everything that it leads to before the next name
of the clause has its turn. `Catalogue.Visits` describes that by the nesting of the clauses, while
the visit itself keeps an agenda of the names that are left. Both come to the same, in whatever way
the known protocols refine each other, in circles too.

So the merged requirements are those of the protocol itself and then those of the visited ones, in
the order of the visits, and each key is kept where it comes up first. The merged inheritance clause
lists every name that is met on the way.
-/

namespace TestDouble

variable {known : Catalogue} {protocol : Protocol}

/-! ## Depth first -/

namespace Catalogue

/-- Following names one after the other, each with all that it leads to, which are the visits. A
name that is in `visited`, or has been visited on the way, is not entered again. -/
inductive Visits (known : Catalogue) : Set String → List String → List (String × Protocol) → Prop
  | done {visited : Set String} : Visits known visited [] []
  | passed {visited : Set String} {name : String} {names : List String}
      {visits : List (String × Protocol)} :
      known.lookup name = none ∨ name ∈ visited → Visits known visited names visits →
      Visits known visited (name :: names) visits
  | entered {visited : Set String} {name : String} {names : List String} {parent : Protocol}
      {inner outer : List (String × Protocol)} :
      known.lookup name = some parent → name ∉ visited →
      Visits known (insert name visited) parent.inherited inner →
      Visits known (insert name visited ∪ {other | other ∈ inner.map Prod.fst}) names outer →
      Visits known visited (name :: names) ((name, parent) :: (inner ++ outer))

/-- There is one way only to go depth first. -/
theorem Visits.unique {visited : Set String} {names : List String}
    {visits visits' : List (String × Protocol)} (h : known.Visits visited names visits)
    (h' : known.Visits visited names visits') : visits = visits' := by
  induction h generalizing visits' with
  | done =>
    cases h'
    rfl
  | passed hold _ ih =>
    cases h' with
    | passed _ hrest => exact ih hrest
    | entered hknown hnew => simp [hknown, hnew] at hold
  | entered hknown hnew _ _ ihinner ihouter =>
    cases h' with
    | passed hold => simp [hknown, hnew] at hold
    | entered hknown' _ hinner houter =>
      obtain rfl := Option.some.inj (hknown.symm.trans hknown')
      obtain rfl := ihinner hinner
      rw [ihouter houter]

private theorem unvisited_le_of_subset {visited visited' : List String}
    (h : ∀ name ∈ visited, name ∈ visited') : known.unvisited visited' ≤ known.unvisited visited :=
  List.countP_mono_left fun entry _ hnew ↦ by
    simp only [Bool.not_eq_true', List.contains_eq_mem, decide_eq_false_iff_not] at hnew ⊢
    exact fun hmem ↦ hnew (h _ hmem)

end Catalogue

namespace Ancestry

/-- The names in front of the agenda are followed depth first before the rest of it. -/
theorem exists_visits (known : Catalogue) (self : String) (names : List String)
    (ancestry : Ancestry) :
    ∃ visits next, known.Visits {name | name ∈ ancestry.visited} names visits ∧
      next.found = ancestry.found ++ visits.map Prod.snd ∧
      (∀ name, name ∈ next.visited ↔ name ∈ ancestry.visited ∨ name ∈ visits.map Prod.fst) ∧
      ∀ agenda, follow known self (names ++ agenda) ancestry = follow known self agenda next := by
  match names with
  | [] => exact ⟨[], ancestry, .done, by simp, by simp, fun _ ↦ rfl⟩
  | name :: names =>
    by_cases hold : known.lookup name = none ∨ name ∈ ancestry.visited
    · obtain ⟨visits, next, hvisits, hfound, hvisited, hfollow⟩ :=
        exists_visits known self names (ancestry.mention self name)
      rw [visited_mention] at hvisits hvisited
      rw [found_mention] at hfound
      refine ⟨visits, next, .passed hold hvisits, hfound, hvisited, fun agenda ↦ ?_⟩
      rw [List.cons_append, follow_of_old (by simpa using hold), hfollow]
    · obtain ⟨hknown, hnew⟩ := not_or.mp hold
      obtain ⟨parent, hknown⟩ := Option.ne_none_iff_exists'.mp hknown
      have hnew' : ancestry.visited.contains name = false := by simpa using hnew
      have hentered : (ancestry.visit self name parent).visited = name :: ancestry.visited := by
        simp [visit]
      have hless : known.unvisited (ancestry.visit self name parent).visited <
          known.unvisited ancestry.visited := by
        rw [hentered]
        exact Catalogue.unvisited_cons_lt hknown hnew'
      -- One name fewer is unvisited in the parent's clause, and behind it still.
      obtain ⟨inner, mid, hinner, hfound, hvisited, hfollow⟩ :=
        exists_visits known self parent.inherited (ancestry.visit self name parent)
      have hmid : known.unvisited mid.visited < known.unvisited ancestry.visited :=
        Nat.lt_of_le_of_lt
          (Catalogue.unvisited_le_of_subset fun _ hmem ↦ (hvisited _).mpr (.inl hmem)) hless
      obtain ⟨outer, next, houter, hfound', hvisited', hfollow'⟩ :=
        exists_visits known self names mid
      refine ⟨(name, parent) :: (inner ++ outer), next, .entered hknown hnew ?_ ?_, ?_, ?_, ?_⟩
      · convert hinner using 1
        ext other
        simp [hentered]
      · convert houter using 1
        ext other
        simp [hvisited, hentered]
      · rw [hfound', hfound, visit, found_mention]
        simp
      · intro other
        rw [hvisited', hvisited, hentered]
        simp [or_assoc, or_left_comm]
      · intro agenda
        rw [List.cons_append, follow_of_new hknown hnew', hfollow, hfollow']
termination_by (known.unvisited ancestry.visited, names.length)
decreasing_by
  · rw [visited_mention]
    exact .right _ (Nat.lt_succ_self _)
  · exact .left _ _ hless
  · exact .left _ _ hmid

end Ancestry

private theorem exists_visits_ancestry (known : Catalogue) (protocol : Protocol) :
    ∃ visits, known.Visits {protocol.name} protocol.inherited visits ∧
      (protocol.ancestry known).found = visits.map Prod.snd := by
  obtain ⟨visits, next, hvisits, hfound, -, hfollow⟩ := Ancestry.exists_visits known protocol.name
    protocol.inherited { visited := [protocol.name] }
  refine ⟨visits, by simpa using hvisits, ?_⟩
  have hfollow := hfollow []
  rw [List.append_nil] at hfollow
  rw [Protocol.ancestry, hfollow, Ancestry.follow, hfound, List.nil_append]

/-! ## Names that are listed -/

namespace Ancestry

variable {name : String} {agenda : List String} {ancestry : Ancestry} {parent : Protocol}

/-- What holds of the list of names while the agenda is worked off: a name that is mentioned by what
was found is listed as soon as it has left the agenda. -/
structure Lists (known : Catalogue) (protocol : Protocol) (agenda : List String)
    (ancestry : Ancestry) : Prop where
  nodup : ancestry.listed.Nodup
  self_not_listed : protocol.name ∉ ancestry.listed
  listed_mentioned : ∀ name ∈ ancestry.listed, Mentioned known protocol name
  mentioned_listed : ∀ declaring ∈ protocol :: ancestry.found, ∀ name ∈ declaring.inherited,
    name ∈ agenda ∨ name ∈ ancestry.listed ∨ name = protocol.name

theorem Lists.initial (known : Catalogue) (protocol : Protocol) :
    Lists known protocol protocol.inherited { visited := [protocol.name] } where
  nodup := List.nodup_nil
  self_not_listed := List.not_mem_nil
  listed_mentioned _ h := (List.not_mem_nil h).elim
  mentioned_listed declaring h name hname := by
    rw [List.mem_singleton] at h
    exact .inl (h ▸ hname)

theorem mem_listed_mention {self other : String} :
    other ∈ (ancestry.mention self name).listed ↔
      other ∈ ancestry.listed ∨ other = name ∧ name ≠ self := by
  rw [mention]
  split
  · next h =>
    rw [Bool.or_eq_true, decide_eq_true_eq, List.contains_iff_mem] at h
    refine ⟨.inl, ?_⟩
    rintro (hmem | ⟨rfl, hne⟩)
    · exact hmem
    · exact h.resolve_right hne
  · next h =>
    rw [Bool.or_eq_true, decide_eq_true_eq, not_or] at h
    rw [List.mem_append, List.mem_singleton, and_iff_left h.2]

theorem nodup_listed_mention {self : String} (h : ancestry.listed.Nodup) :
    (ancestry.mention self name).listed.Nodup := by
  rw [mention]
  split
  · exact h
  · next hnew =>
    rw [Bool.or_eq_true, not_or, List.contains_iff_mem] at hnew
    exact List.nodup_append'.mpr ⟨h, List.nodup_singleton name, by simpa using hnew.1⟩

/-- The first name of the agenda is listed, whether it leads anywhere or not. -/
theorem Lists.mention (h : Lists known protocol (name :: agenda) ancestry)
    (hname : Mentioned known protocol name) :
    Lists known protocol agenda (ancestry.mention protocol.name name) where
  nodup := nodup_listed_mention h.nodup
  self_not_listed hmem := by
    rcases mem_listed_mention.mp hmem with hmem | ⟨heq, hne⟩
    · exact h.self_not_listed hmem
    · exact hne heq.symm
  listed_mentioned other hmem := by
    rcases mem_listed_mention.mp hmem with hmem | ⟨rfl, -⟩
    · exact h.listed_mentioned other hmem
    · exact hname
  mentioned_listed declaring hmem other hother := by
    rw [found_mention] at hmem
    rw [mem_listed_mention]
    rcases h.mentioned_listed declaring hmem other hother with hlater | hlisted | hself
    · rcases List.mem_cons.mp hlater with rfl | hlater
      · exact .inr (or_iff_not_imp_right.mpr fun hne ↦ .inr ⟨rfl, hne⟩)
      · exact .inl hlater
    · exact .inr (.inl (.inl hlisted))
    · exact .inr (.inr hself)

/-- What a protocol mentions is put on the agenda when it is visited. -/
theorem Lists.visit (h : Lists known protocol (name :: agenda) ancestry)
    (hname : Mentioned known protocol name) (parent : Protocol) :
    Lists known protocol (parent.inherited ++ agenda)
      (ancestry.visit protocol.name name parent) := by
  have hmention := h.mention hname
  refine ⟨hmention.nodup, hmention.self_not_listed, hmention.listed_mentioned, ?_⟩
  intro declaring hmem other hother
  rw [Ancestry.visit, ← List.cons_append] at hmem
  rcases List.mem_append.mp hmem with hold | hlast
  · exact (hmention.mentioned_listed declaring hold other hother).imp_left
      (List.mem_append_right _)
  · rw [List.mem_singleton] at hlast
    exact .inl (List.mem_append_left _ (hlast ▸ hother))

theorem Lists.follow (h : Lists known protocol agenda ancestry)
    (hexplores : Explores known protocol agenda ancestry) :
    Lists known protocol [] (follow known protocol.name agenda ancestry) := by
  fun_induction Ancestry.follow known protocol.name agenda ancestry with
  | case1 ancestry => exact h
  | case2 name agenda ancestry parent hknown hnew =>
    rename_i ih
    have hname := hexplores.agenda_mentioned name List.mem_cons_self
    exact ih (h.visit hname parent) (hexplores.visit hknown (by simpa using hnew))
  | case3 name agenda ancestry hold ih =>
    have hname := hexplores.agenda_mentioned name List.mem_cons_self
    refine ih (h.mention hname) (hexplores.mention ?_)
    rcases hknown : known.lookup name with _ | parent
    · exact .inl rfl
    · exact .inr (by simpa using hold parent hknown)

end Ancestry

/-- The listed names are those that the inheritance clauses lead to, the protocol's own left out. -/
theorem mem_listed_iff {name : String} (hname : name ≠ protocol.name) :
    name ∈ (protocol.ancestry known).listed ↔ Mentioned known protocol name := by
  have h : Ancestry.Lists known protocol [] (protocol.ancestry known) :=
    (Ancestry.Lists.initial known protocol).follow (.initial known protocol)
  refine ⟨h.listed_mentioned name, ?_⟩
  -- Nothing is left on the agenda, so what is mentioned has been listed.
  rintro ⟨declaring, hcontributes, hmem⟩
  have hlisted := h.mentioned_listed declaring (mem_declared_iff.mpr hcontributes) name hmem
  exact (hlisted.resolve_left List.not_mem_nil).resolve_right hname

/-! ## Keys in their order -/

section

variable {α κ : Type} [BEq κ] [LawfulBEq κ]

private theorem map_distinctFrom_eq_eraseDups (key : α → κ) (seen : List κ) (items : List α) :
    (distinctFrom key seen items).map key =
      ((items.map key).filter (!seen.contains ·)).eraseDups := by
  induction items generalizing seen with
  | nil => rfl
  | cons item items ih =>
    rw [distinctFrom, List.map_cons]
    split
    · next hseen => rw [ih, List.filter_cons_of_neg (by simpa using hseen)]
    · next hnew =>
      rw [List.map_cons, ih, List.filter_cons_of_pos (by simpa using hnew), List.eraseDups_cons,
        List.filter_filter]
      congr 3
      ext k
      rw [List.contains_cons, Bool.not_or]

/-- The kept items are what the protocol itself declares, followed by what the visited protocols
declare, with every key where it comes first. -/
structure MergedAlong (known : Catalogue) (protocol : Protocol) (visits : List (String × Protocol))
    (part : Protocol → List α) (key : α → κ) (kept : List α) : Prop where
  nodup : (kept.map key).Nodup
  mem_iff : ∀ k, k ∈ kept.map key ↔ ∃ item, Declared known protocol part item ∧ key item = k
  own_first : ((part protocol).map key).eraseDups <+: kept.map key
  in_order : kept.map key =
    ((protocol :: visits.map Prod.snd).flatMap fun declaring ↦ (part declaring).map key).eraseDups

private theorem mergedAlong_distinctBy {visits : List (String × Protocol)}
    (hvisits : (protocol.ancestry known).found = visits.map Prod.snd) (part : Protocol → List α)
    (key : α → κ) :
    MergedAlong known protocol visits part key
      (distinctBy key ((protocol :: (protocol.ancestry known).found).flatMap part)) := by
  have horder : (distinctBy key ((protocol :: (protocol.ancestry known).found).flatMap part)).map
      key = ((protocol :: visits.map Prod.snd).flatMap fun declaring ↦
        (part declaring).map key).eraseDups := by
    rw [distinctBy, map_distinctFrom_eq_eraseDups, hvisits, List.map_flatMap]
    simp
  refine ⟨nodup_map_distinctFrom [] _, fun k ↦ ?_, ?_, horder⟩
  · rw [horder, List.mem_eraseDups, ← hvisits, ← List.map_flatMap, List.mem_map]
    simp only [mem_flatMap_declared_iff]
  · rw [horder, List.flatMap_cons, List.eraseDups_append]
    exact List.prefix_append _ _

end

/-- Merging follows the inheritance clauses. It lists the names that they lead to, and it takes the
requirements of the one depth-first visit. -/
theorem withInherited_follows (known : Catalogue) (protocol : Protocol) :
    let merged := protocol.withInherited known
    (merged.inherited.Nodup ∧ protocol.name ∉ merged.inherited ∧
      ∀ name, name ≠ protocol.name →
        (name ∈ merged.inherited ↔ Mentioned known protocol name)) ∧
    (∃! visits, known.Visits {protocol.name} protocol.inherited visits ∧
      MergedAlong known protocol visits (·.methods) (·.identity) merged.methods ∧
      MergedAlong known protocol visits (·.properties) (·.identity) merged.properties) ∧
    ∀ style mock, Mock.ofProtocol style known protocol = .ok mock →
      (mock.superclass? = some "NSObject" ↔ "NSObjectProtocol" ∈ merged.inherited) := by
  intro merged
  have hlists : Ancestry.Lists known protocol [] (protocol.ancestry known) :=
    (Ancestry.Lists.initial known protocol).follow (.initial known protocol)
  obtain ⟨visits, hvisits, hfound⟩ := exists_visits_ancestry known protocol
  refine ⟨⟨hlists.nodup, hlists.self_not_listed, fun name ↦ mem_listed_iff⟩, ⟨visits, ?_, ?_⟩, ?_⟩
  · exact ⟨hvisits, mergedAlong_distinctBy hfound _ _, mergedAlong_distinctBy hfound _ _⟩
  · exact fun visits' h ↦ h.1.unique hvisits
  · intro style mock hmock
    obtain ⟨names, -, rfl, -⟩ := Mock.ofProtocol_eq_ok_iff.mp hmock
    by_cases h : "NSObjectProtocol" ∈ merged.inherited <;>
      simp [Mock.ofMerged, Mock.objectProtocol, merged, h]

/-- Two protocols refine a third one, which refines one of them, and the other one refines the
protocol that is merged. -/
theorem withInherited_follows_circles :
    let store : Protocol := {
      name := "Store"
      properties := [{ name := "size", type := { base := "Int" }, hasSetter := false }]
      inherited := ["Left", "Right"] }
    let left : Protocol := { name := "Left", inherited := ["Base"] }
    let right : Protocol := {
      name := "Right"
      properties := [{ name := "top", type := { base := "Int" }, hasSetter := false },
        { name := "size", type := { base := "Int" }, hasSetter := false }]
      inherited := ["Base", "Store"] }
    let base : Protocol := {
      name := "Base"
      properties := [{ name := "root", type := { base := "Int" }, hasSetter := true }]
      inherited := ["NSObjectProtocol", "Left"] }
    let known := ((Catalogue.empty.add left).add right).add base
    (∃ mock, Mock.ofProtocol .standard known store = .ok mock ∧
      mock.superclass? = some "NSObject") ∧
    (store.withInherited known).inherited = ["Left", "Base", "NSObjectProtocol", "Right"] ∧
    (∃! visits, known.Visits {"Store"} ["Left", "Right"] visits ∧
      MergedAlong known store visits (·.methods) (·.identity) [] ∧
      MergedAlong known store visits (·.properties) (·.identity)
        (store.properties ++ base.properties ++ right.properties.take 1)) := by
  intro store left right base known
  have hancestry : store.ancestry known = {
      found := [left, base, right]
      listed := ["Left", "Base", "NSObjectProtocol", "Right"]
      visited := ["Right", "Base", "Left", "Store"] } := by
    calc store.ancestry known
      _ = Ancestry.follow known "Store" ["Base", "Right"]
          { found := [left], listed := ["Left"], visited := ["Left", "Store"] } :=
        Ancestry.follow_of_new (show known.lookup _ = some left from rfl) rfl
      _ = Ancestry.follow known "Store" ["NSObjectProtocol", "Left", "Right"]
          { found := [left, base], listed := ["Left", "Base"]
            visited := ["Base", "Left", "Store"] } :=
        Ancestry.follow_of_new (show known.lookup _ = some base from rfl) rfl
      _ = Ancestry.follow known "Store" ["Left", "Right"] {
          found := [left, base]
          listed := ["Left", "Base", "NSObjectProtocol"]
          visited := ["Base", "Left", "Store"] } :=
        Ancestry.follow_of_old (.inl rfl)
      _ = Ancestry.follow known "Store" ["Right"] {
          found := [left, base]
          listed := ["Left", "Base", "NSObjectProtocol"]
          visited := ["Base", "Left", "Store"] } :=
        Ancestry.follow_of_old (.inr rfl)
      _ = Ancestry.follow known "Store" ["Base", "Store"] {
          found := [left, base, right]
          listed := ["Left", "Base", "NSObjectProtocol", "Right"]
          visited := ["Right", "Base", "Left", "Store"] } :=
        Ancestry.follow_of_new (show known.lookup _ = some right from rfl) rfl
      _ = Ancestry.follow known "Store" ["Store"] {
          found := [left, base, right]
          listed := ["Left", "Base", "NSObjectProtocol", "Right"]
          visited := ["Right", "Base", "Left", "Store"] } :=
        Ancestry.follow_of_old (.inr rfl)
      _ = Ancestry.follow known "Store" [] {
          found := [left, base, right]
          listed := ["Left", "Base", "NSObjectProtocol", "Right"]
          visited := ["Right", "Base", "Left", "Store"] } :=
        Ancestry.follow_of_old (.inl rfl)
      _ = _ := by rw [Ancestry.follow]
  have hmock : (Mock.ofProtocol .standard known store).isOk = true := by
    rw [Mock.ofProtocol, Protocol.withInherited, hancestry]
    decide +kernel
  obtain ⟨mock, hmock⟩ := Except.isOk_iff_exists.mp hmock
  obtain ⟨-, hvisits, hsuperclass⟩ := withInherited_follows known store
  have hmerged : store.withInherited known = { store with
      properties := store.properties ++ base.properties ++ right.properties.take 1
      inherited := ["Left", "Base", "NSObjectProtocol", "Right"] } := by
    rw [Protocol.withInherited, hancestry]
    rfl
  rw [hmerged] at hvisits
  refine ⟨⟨mock, hmock, (hsuperclass _ mock hmock).mpr ?_⟩, ?_, hvisits⟩
  · rw [hmerged]
    decide
  · rw [hmerged]

end TestDouble
