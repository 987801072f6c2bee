import Mathlib.Data.List.Nodup

/-!
# Keys in lists

Entries are kept in lists, and the first one with a key counts. Where keys do not repeat that is the
only one, whichever end the search begins at.
-/

namespace TestDouble

variable {α β κ : Type} {f : α → κ} {g : α → List κ} {xs : List α}

theorem map_sublist_flatMap (h : ∀ x, f x ∈ g x) : (xs.map f).Sublist (xs.flatMap g) := by
  induction xs with
  | nil => exact .slnil
  | cons x xs ih =>
    rw [List.map_cons, List.flatMap_cons, ← List.singleton_append]
    exact (List.singleton_sublist.mpr (h x)).append ih

/-- Where keys do not repeat, a key finds the only item that has it. -/
theorem find?_key_eq_some_iff [DecidableEq κ] (h : (xs.map f).Nodup) {key : κ} {x : α} :
    xs.find? (f · = key) = some x ↔ x ∈ xs ∧ f x = key := by
  constructor
  · intro hx
    exact ⟨List.mem_of_find?_eq_some hx, by simpa using List.find?_some hx⟩
  · rintro ⟨hx, rfl⟩
    have hfound : (xs.find? (f · = f x)).isSome := List.find?_isSome.mpr ⟨x, hx, by simp⟩
    obtain ⟨y, hy⟩ := Option.isSome_iff_exists.mp hfound
    have hkey : f y = f x := by simpa using List.find?_some hy
    rw [hy, List.inj_on_of_nodup_map h (List.mem_of_find?_eq_some hy) hx hkey]

section

variable [BEq κ] [LawfulBEq κ] [DecidableEq κ]

@[simp, grind =] theorem lookup_cons_eq_ite (key key' : κ) (value : β) (entries : List (κ × β)) :
    ((key', value) :: entries).lookup key =
      if key = key' then some value else entries.lookup key := by
  rw [List.lookup_cons]
  by_cases h : key = key'
  · simp [h]
  · rw [beq_false_of_ne h, if_neg h]

@[simp] theorem lookup_filter_ne (entries : List (κ × β)) (key key' : κ) :
    (entries.filter (·.1 ≠ key')).lookup key = if key = key' then none else entries.lookup key := by
  induction entries with
  | nil => simp
  | cons entry entries ih =>
    by_cases hown : entry.1 = key' <;> grind

theorem lookup_map_of_nodup (h : (xs.map f).Nodup) (value : α → β)
    {x : α} (hx : x ∈ xs) : (xs.map fun y ↦ (f y, value y)).lookup (f x) = some (value x) := by
  induction xs with
  | nil => cases hx
  | cons y xs ih =>
    rw [List.map_cons, List.nodup_cons] at h
    rw [List.map_cons, lookup_cons_eq_ite]
    rcases List.mem_cons.mp hx with rfl | hmem
    · exact if_pos rfl
    · have hne : f x ≠ f y := fun heq ↦ h.1 (heq ▸ List.mem_map_of_mem hmem)
      rw [if_neg hne]
      exact ih h.2 hmem

omit [DecidableEq κ] in
theorem isSome_lookup_iff {entries : List (κ × β)} {key : κ} :
    (entries.lookup key).isSome ↔ key ∈ entries.map Prod.fst := by
  rw [← not_iff_not, Option.not_isSome_iff_eq_none, List.lookup_eq_none_iff, List.mem_map]
  simp only [bne_iff_ne, ne_eq, not_exists, not_and]
  exact forall₂_congr fun _ _ ↦ not_congr eq_comm

/-- Where keys do not repeat, a key finds every entry that has it. -/
theorem lookup_eq_some_iff_mem {entries : List (κ × β)} (h : (entries.map Prod.fst).Nodup)
    {key : κ} {value : β} : entries.lookup key = some value ↔ (key, value) ∈ entries := by
  constructor
  · intro hlookup
    obtain ⟨before, after, rfl, -⟩ := List.lookup_eq_some_iff.mp hlookup
    simp
  · intro hmem
    simpa using lookup_map_of_nodup h Prod.snd hmem

end

end TestDouble
