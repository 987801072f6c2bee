import Mathlib.Data.List.Dedup
import Mathlib.Data.List.Perm.Subperm
import TestDouble.Proofs.Except
import TestDouble.Proofs.FieldName.Attempts

/-!
# Settled names

Names are settled on in the order of declaration, each as the first one tried whose fields are free
at that point. That alone keeps all fields apart, also where a suffix or a number makes one proposal
equal to another, since what is taken only grows. It also bounds when naming has to give up: every
name that is tried needs a taken field of its own to be ruled out, and a method before it takes no
more than three.
-/

namespace TestDouble.FieldName

variable {taken reserved names : List String} {name field : String} {methods : List Method}
  {fault : Fault} {i j : Nat}

/-! ## One name after the other -/

/-- The fields that are taken when a name is settled on for the method at a position. -/
def takenAt (taken proposed : List String) (position : Nat) : List String :=
  taken ++ ((settle taken proposed).take position).flatMap ofMethod

theorem length_settle_le (taken proposed : List String) :
    (settle taken proposed).length ≤ proposed.length := by
  induction proposed generalizing taken with
  | nil => exact Nat.le_refl _
  | cons name proposed ih =>
    rw [settle]
    split
    · exact Nat.succ_le_succ (ih _)
    · exact Nat.zero_le _

/-- A name is settled on if it is the first one tried that is free, and naming stops where there is
none. -/
theorem find?_attempts_eq {proposed : List String} (hname : proposed[i]? = some name)
    (hi : i ≤ (settle taken proposed).length) :
    (attempts name).find? (isFree (takenAt taken proposed i)) = (settle taken proposed)[i]? := by
  induction proposed generalizing taken i with
  | nil => cases hname
  | cons first proposed ih =>
    rcases hfirst : (attempts first).find? (isFree taken) with _ | settled
    · have hstop : settle taken (first :: proposed) = [] := by rw [settle, hfirst]
      rw [hstop, List.length_nil, Nat.le_zero] at hi
      subst hi
      obtain rfl := Option.some.inj hname
      simpa [takenAt, hstop] using hfirst
    · have hgo : settle taken (first :: proposed) =
          settled :: settle (taken ++ ofMethod settled) proposed := by rw [settle, hfirst]
      rw [takenAt, hgo]
      cases i with
      | zero =>
        obtain rfl := Option.some.inj hname
        simpa using hfirst
      | succ i =>
        rw [hgo, List.length_cons] at hi
        -- What is taken behind the first name includes its fields.
        have hrest := ih hname (Nat.le_of_succ_le_succ hi)
        rw [takenAt, List.append_assoc] at hrest
        simpa using hrest

private theorem mem_takenAt_of_lt {proposed : List String}
    (hname : (settle taken proposed)[i]? = some name)
    (hlt : i < j) (hfield : field ∈ ofMethod name) : field ∈ takenAt taken proposed j := by
  refine List.mem_append_right _ (List.mem_flatMap.mpr ⟨name, ?_, hfield⟩)
  refine List.mem_of_getElem? (i := i) ?_
  rw [List.getElem?_take, if_pos hlt, hname]

@[simp]
theorem isFree_eq_true_iff : isFree taken name = true ↔ ∀ field ∈ ofMethod name, field ∉ taken := by
  simp [isFree]

/-- The fields of the name at a position are none of those that are taken there. -/
theorem not_mem_takenAt {proposed : List String} (hname : (settle taken proposed)[i]? = some name)
    (hfield : field ∈ ofMethod name) : field ∉ takenAt taken proposed i := by
  obtain ⟨hi, -⟩ := List.getElem?_eq_some_iff.mp hname
  obtain ⟨first, hfirst⟩ : ∃ first, proposed[i]? = some first :=
    ⟨_, List.getElem?_eq_getElem (hi.trans_le (length_settle_le taken proposed))⟩
  have hfound := (find?_attempts_eq hfirst hi.le).trans hname
  exact isFree_eq_true_iff.mp (List.find?_some hfound) field hfield

/-- All names that are settled on keep their fields apart, and away from what was taken before. -/
theorem nodup_flatMap_settle (taken proposed : List String) :
    ((settle taken proposed).flatMap ofMethod).Nodup ∧
      ∀ field ∈ (settle taken proposed).flatMap ofMethod, field ∉ taken := by
  constructor
  · refine List.nodup_flatMap.mpr ⟨fun name _ ↦ nodup_ofMethod name, ?_⟩
    refine List.pairwise_iff_getElem.mpr fun i j hi hj hlt field hfield hother ↦ ?_
    have htaken := mem_takenAt_of_lt (List.getElem?_eq_getElem hi) hlt hfield
    exact not_mem_takenAt (List.getElem?_eq_getElem hj) hother htaken
  · intro field hfield htaken
    obtain ⟨name, hmem, hfield⟩ := List.mem_flatMap.mp hfield
    obtain ⟨i, hname⟩ := List.mem_iff_getElem?.mp hmem
    exact not_mem_takenAt hname hfield (List.mem_append_left _ htaken)

/-- Each of the names settled on is one of those tried for the proposal at its position. -/
theorem forall₂_attempts_settle {proposed : List String}
    (hlength : (settle taken proposed).length = proposed.length) :
    List.Forall₂ (· ∈ attempts ·) (settle taken proposed) proposed := by
  refine List.forall₂_iff_get.mpr ⟨hlength, fun i hi hi' ↦ ?_⟩
  have hfound := find?_attempts_eq (List.getElem?_eq_getElem hi') hi.le
  rw [List.getElem?_eq_getElem hi] at hfound
  exact List.mem_of_find?_eq_some hfound

/-! ## Names for all methods -/

@[simp] theorem length_proposals (methods : List Method) :
    (proposals methods).length = methods.length := by
  simp [proposals]

theorem assign_eq_ok_iff :
    assign methods reserved = .ok names ↔
      settle reserved (proposals methods) = names ∧ names.length = methods.length := by
  have hle := length_settle_le reserved (proposals methods)
  rw [length_proposals] at hle
  simp only [assign]
  split
  · next method name hmethod hname =>
    obtain ⟨hlt, -⟩ := List.getElem?_eq_some_iff.mp hmethod
    simp only [reduceCtorEq, false_iff, not_and]
    rintro rfl
    exact hlt.ne
  · next hnone =>
    have hlength : (settle reserved (proposals methods)).length = methods.length := by
      refine hle.eq_of_not_lt fun hlt ↦ ?_
      have hlt' := hlt.trans_eq (length_proposals methods).symm
      exact hnone _ _ (List.getElem?_eq_getElem hlt) (List.getElem?_eq_getElem hlt')
    rw [Except.ok.injEq]
    exact ⟨fun h ↦ ⟨h, h ▸ hlength⟩, And.left⟩

/-- Naming gives up at the first method for which nothing that is tried is free. -/
theorem exists_of_assign_eq_error (h : assign methods reserved = .error fault) :
    ∃ i method name, methods[i]? = some method ∧ (proposals methods)[i]? = some name ∧
      fault = { cause := .noFreeName name, place := { member? := some method.name } } ∧
      (attempts name).find? (isFree (takenAt reserved (proposals methods) i)) = none := by
  simp only [assign] at h
  split at h
  · next method name hmethod hname =>
    refine ⟨_, method, name, hmethod, hname, (Except.error.inj h).symm, ?_⟩
    rw [find?_attempts_eq hname (Nat.le_refl _), List.getElem?_length]
  · cases h

/-- Whenever all methods get names, each gets one of those tried for it, in their order, and no two
fields of theirs are equal, nor is any of them reserved. -/
theorem assign_keeps_apart (h : assign methods reserved = .ok names) :
    names.length = methods.length ∧ List.Forall₂ (· ∈ attempts ·) names (proposals methods) ∧
      (names.flatMap ofMethod).Nodup ∧ ∀ field ∈ names.flatMap ofMethod, field ∉ reserved := by
  obtain ⟨rfl, hlength⟩ := assign_eq_ok_iff.mp h
  have hattempts := forall₂_attempts_settle (hlength.trans (length_proposals methods).symm)
  exact ⟨hlength, hattempts, nodup_flatMap_settle reserved (proposals methods)⟩

/-- A suffix makes an overload look like another method, whose number is taken as well, and a
property has the field of the other overload. -/
theorem assign_keeps_apart_loads :
    let method (name : String) : Method := {
      name
      parameters := []
      labels_nodup := List.nodup_nil
      names_nodup := List.nodup_nil
      result_not_void := by simp }
    let load (label : String) : Method := {
      name := "load"
      parameters := [{ name := label, type := { base := "Int" } }]
      labels_nodup := (List.nodup_singleton label).filter _
      names_nodup := List.nodup_singleton label
      result_not_void := by simp }
    let methods := [method "loadId2", method "LoadId", load "id", load "name"]
    let reserved := ["invokedLoadName", "stubbedLoadName"]
    let names := ["loadId2", "LoadId", "loadId3", "loadName2"]
    assign methods reserved = .ok names ∧ names.length = methods.length ∧
      List.Forall₂ (· ∈ attempts ·) names (proposals methods) ∧
      (names.flatMap ofMethod).Nodup ∧ ∀ field ∈ names.flatMap ofMethod, field ∉ reserved := by
  intro method load methods reserved names
  have hnames : (assign methods reserved).toOption = some names := by decide +kernel
  have hnames := Except.toOption_eq_some_iff.mp hnames
  exact ⟨hnames, assign_keeps_apart hnames⟩

/-! ## Giving up -/

/-- Fields that rule out all names tried for a proposal: one of each name, all different and all
taken. -/
structure RulesOut (fields taken : List String) (name : String) : Prop where
  nodup : fields.Nodup
  subset : fields ⊆ taken
  forall₂ : List.Forall₂ (· ∈ ofMethod ·) fields (attempts name)

theorem RulesOut.length_eq {fields : List String} (h : RulesOut fields taken name) :
    fields.length = 100 := by
  rw [h.forall₂.length_eq]
  simp [attempts, attemptLimit]

/-- Where nothing that is tried is free, each name that is tried has a field of its own that is
taken. -/
theorem exists_rulesOut (h : (attempts name).find? (isFree taken) = none) :
    ∃ fields, RulesOut fields taken name := by
  have htaken : ∀ attempt ∈ attempts name, ∃ field ∈ ofMethod attempt, field ∈ taken := by
    intro attempt hattempt
    have hnot := List.find?_eq_none.mp h attempt hattempt
    rw [isFree_eq_true_iff] at hnot
    push Not at hnot
    exact hnot
  choose! pick hpick hmem using htaken
  refine ⟨(attempts name).map pick, ?_, ?_, ?_⟩
  · -- A field of two names would be one that they have in common.
    rw [List.Nodup, List.pairwise_map]
    refine (pairwise_disjoint_attempts name).imp_of_mem fun hattempt hother hdisjoint heq ↦ ?_
    exact hdisjoint (hpick _ hattempt) (heq ▸ hpick _ hother)
  · exact List.forall_mem_map.mpr hmem
  · rw [List.forall₂_map_left_iff, List.forall₂_same]
    exact hpick

private theorem length_flatMap_ofMethod (names : List String) :
    (names.flatMap ofMethod).length = 3 * names.length := by
  simp [ofMethod, Nat.mul_comm]

/-- Different fields that are taken at a position are reserved or come from a method before it. -/
theorem length_le_of_subset_takenAt {proposed fields : List String} (hnodup : fields.Nodup)
    (hsubset : fields ⊆ takenAt reserved proposed i) :
    fields.length ≤ reserved.dedup.length + 3 * i := by
  have hsubset' : fields ⊆ reserved.dedup ++
      ((settle reserved proposed).take i).flatMap ofMethod := by
    intro field hfield
    simpa [takenAt] using hsubset hfield
  have hlength := (hnodup.subperm hsubset').length_le
  rw [List.length_append, length_flatMap_ofMethod, List.length_take] at hlength
  omega

/-- Few methods with few fields reserved always get names. Where naming gives up at a method, a
hundred different fields are taken there, one for each of the hundred names tried. -/
theorem assign_gives_up_late (methods : List Method) (reserved : List String) :
    ((reserved.dedup.length : Int) + 3 * (methods.length - 1) < 100 →
      ∃ names, assign methods reserved = .ok names) ∧
    ∀ fault, assign methods reserved = .error fault →
      ∃ i method name fields, methods[i]? = some method ∧ (proposals methods)[i]? = some name ∧
        fault = { cause := .noFreeName name, place := { member? := some method.name } } ∧
        RulesOut fields (takenAt reserved (proposals methods) i) name ∧ fields.length = 100 := by
  refine ⟨fun hfew ↦ ?_, fun fault hfault ↦ ?_⟩
  · rcases hassign : assign methods reserved with fault | names
    · obtain ⟨i, _, _, hmethod, -, -, hnone⟩ := exists_of_assign_eq_error hassign
      obtain ⟨fields, hrules⟩ := exists_rulesOut hnone
      have hle := length_le_of_subset_takenAt hrules.nodup hrules.subset
      have hlength := hrules.length_eq
      obtain ⟨hi, -⟩ := List.getElem?_eq_some_iff.mp hmethod
      omega
    · exact ⟨names, rfl⟩
  · obtain ⟨i, method, name, hmethod, hname, heq, hnone⟩ := exists_of_assign_eq_error hfault
    obtain ⟨fields, hrules⟩ := exists_rulesOut hnone
    exact ⟨i, method, name, fields, hmethod, hname, heq, hrules, hrules.length_eq⟩

/-- A hundred fields can be enough: there is no name for the first method if the flags of all names
tried for it are reserved. -/
theorem assign_cons_eq_error {method : Method} (h : ∀ attempt ∈
      attempts (proposal (method :: methods) [] method), invoked attempt ∈ reserved) :
    assign (method :: methods) reserved = .error {
      cause := .noFreeName (proposal (method :: methods) [] method)
      place := { member? := some method.name } } := by
  have hfirst : ∃ later, proposals (method :: methods) =
      proposal (method :: methods) [] method :: later := ⟨_, rfl⟩
  obtain ⟨later, hfirst⟩ := hfirst
  have hnone : (attempts (proposal (method :: methods) [] method)).find? (isFree reserved) =
      none := by
    refine List.find?_eq_none.mpr fun attempt hattempt hfree ↦ ?_
    exact isFree_eq_true_iff.mp hfree _ List.mem_cons_self (h attempt hattempt)
  have hstop : settle reserved (proposals (method :: methods)) = [] := by
    rw [hfirst, settle, hnone]
  have hname : (proposals (method :: methods))[0]? =
      some (proposal (method :: methods) [] method) := by rw [hfirst, List.getElem?_cons_zero]
  simp only [assign, hstop, List.length_nil, List.getElem?_cons_zero, hname]

/-- Three names for the second of two methods are reserved and it gets the fourth; all hundred are
reserved and it gets none. -/
theorem assign_gives_up_late_reserved :
    let method (name : String) : Method := {
      name
      parameters := []
      labels_nodup := List.nodup_nil
      names_nodup := List.nodup_nil
      result_not_void := by simp }
    let methods := [method "save", method "load"]
    let few := ["invokedLoad", "invokedLoad2Parameters", "stubbedLoad3Result"]
    let many := (attempts "load").map invoked
    let fault : Fault := { cause := .noFreeName "load", place := { member? := some "load" } }
    (few.dedup.length : Int) + 3 * (methods.length - 1) < 100 ∧
      (∃ names, assign methods few = .ok names) ∧
      assign [method "load"] many = .error fault ∧
      ∃ i method' name fields, [method "load"][i]? = some method' ∧
        (proposals [method "load"])[i]? = some name ∧
        fault = { cause := .noFreeName name, place := { member? := some method'.name } } ∧
        RulesOut fields (takenAt many (proposals [method "load"]) i) name ∧
        fields.length = 100 := by
  intro method methods few many fault
  have hfew : (few.dedup.length : Int) + 3 * (methods.length - 1) < 100 := by decide +kernel
  have hproposal : proposal [method "load"] [] (method "load") = "load" := by decide +kernel
  have hfault : assign [method "load"] many = .error fault := by
    rw [assign_cons_eq_error, hproposal]
    rw [hproposal]
    exact fun _ ↦ List.mem_map_of_mem
  exact ⟨hfew, (assign_gives_up_late methods few).1 hfew, hfault,
    (assign_gives_up_late _ many).2 fault hfault⟩

end TestDouble.FieldName
