import TestDouble.Proofs.FieldName.Settled

/-!
# Names and the order of declaration

A number is the only thing in a name that comes from the place of a method: the number that tells
overloads apart where their signatures do not, and the one behind a name that is taken. Whether the
signatures tell a group of overloads apart depends on which methods are in the group and not on
their order, and so does the distinction that is preferred. So a protocol that needs no number may
declare its methods in any order, and each of them keeps its name.
-/

namespace TestDouble.FieldName

variable {methods others : List Method} {method : Method} {reserved taken names : List String}

/-! ## Groups of overloads in another order -/

theorem overloads_perm (h : others.Perm methods) (method : Method) :
    (overloads others method).Perm (overloads methods method) :=
  h.filter _

theorem Distinction.separates_perm (h : others.Perm methods) (distinction : Distinction) :
    distinction.separates others = distinction.separates methods := by
  have hnames := ((h.map fun method ↦ bare method.name ++ distinction.suffix method).map
    capitalized).nodup_iff
  rw [separates, separates, decide_eq_decide]
  exact hnames

/-- A proposal looks at the methods as a whole, and at those before it for their number. -/
theorem proposal_perm (h : others.Perm methods) (earlier : List Method) (method : Method) :
    proposal others earlier method = proposal methods earlier method := by
  have hgroup := overloads_perm h method
  have hchoice : Distinction.all.find? (·.separates (overloads others method)) =
      Distinction.all.find? (·.separates (overloads methods method)) := by
    congr 1
    funext distinction
    exact distinction.separates_perm hgroup
  rw [proposal, proposal, hgroup.length_eq, hchoice]

/-! ## Proposals without numbers -/

/-- No number is needed to keep the methods apart: signatures tell overloads apart, and the names
proposed have no field in common, nor one that is reserved. -/
structure Unnumbered (methods : List Method) (reserved : List String) : Prop where
  separated : ∀ method ∈ methods, 1 < (overloads methods method).length →
    ∃ distinction : Distinction, distinction.separates (overloads methods method) = true
  apart : (proposals methods).Pairwise fun name other ↦ (ofMethod name).Disjoint (ofMethod other)
  free : ∀ name ∈ proposals methods, (ofMethod name).Disjoint reserved

theorem Distinction.mem_all (distinction : Distinction) : distinction ∈ all := by
  cases distinction <;> decide

theorem mem_overloads_self (h : method ∈ methods) : method ∈ overloads methods method :=
  List.mem_filter.mpr ⟨h, decide_eq_true rfl⟩

/-- Where signatures tell overloads apart, it does not matter how many of them come before. -/
theorem proposal_eq_of_separated (hmethod : method ∈ methods)
    (hseparated : 1 < (overloads methods method).length →
      ∃ distinction : Distinction, distinction.separates (overloads methods method) = true)
    (earlier earlier' : List Method) :
    proposal methods earlier method = proposal methods earlier' method := by
  simp only [proposal]
  split
  · rfl
  · next hlength =>
    -- The method is in its own group, so that there are others in it as well.
    have hpos := List.length_pos_of_mem (mem_overloads_self hmethod)
    obtain ⟨distinction, hdistinction⟩ := hseparated (by omega)
    obtain ⟨preferred, hpreferred⟩ := Option.isSome_iff_exists.mp
      (List.find?_isSome.mpr ⟨distinction, distinction.mem_all, hdistinction⟩)
    rw [hpreferred]

/-- The proposals are a function of the methods, applied to each. -/
theorem proposals_eq_map (hseparated : ∀ method ∈ methods, 1 < (overloads methods method).length →
      ∃ distinction : Distinction, distinction.separates (overloads methods method) = true) :
    proposals methods = methods.map (proposal methods []) := by
  have hmap : methods.map (proposal methods []) =
      methods.zipIdx.map fun entry ↦ proposal methods [] entry.1 :=
    calc methods.map (proposal methods [])
      _ = (methods.zipIdx.map Prod.fst).map (proposal methods []) := by rw [List.zipIdx_map_fst]
      _ = methods.zipIdx.map fun entry ↦ proposal methods [] entry.1 := List.map_map
  rw [proposals, hmap]
  refine List.map_congr_left fun entry hentry ↦ ?_
  have hmem := List.fst_mem_of_mem_zipIdx hentry
  exact proposal_eq_of_separated hmem (hseparated _ hmem) _ _

namespace Unnumbered

theorem proposals_perm (h : Unnumbered methods reserved) (hperm : others.Perm methods) :
    proposals others = others.map (proposal methods []) := by
  rw [proposals_eq_map]
  · exact List.map_congr_left fun method _ ↦ proposal_perm hperm [] method
  · intro method hmethod hlength
    have hgroup := overloads_perm hperm method
    obtain ⟨distinction, hdistinction⟩ :=
      h.separated method (hperm.mem_iff.mp hmethod) (hgroup.length_eq ▸ hlength)
    exact ⟨distinction, (distinction.separates_perm hgroup).trans hdistinction⟩

/-- The proposals of methods in another order are the same proposals in that order. -/
theorem perm_proposals (h : Unnumbered methods reserved) (hperm : others.Perm methods) :
    (proposals others).Perm (proposals methods) := by
  rw [h.proposals_perm hperm, h.proposals_perm (.refl methods)]
  exact hperm.map _

end Unnumbered

/-! ## Names that are settled on as they are proposed -/

theorem settle_eq_self
    (hapart : names.Pairwise fun name other ↦ (ofMethod name).Disjoint (ofMethod other))
    (hfree : ∀ name ∈ names, (ofMethod name).Disjoint taken) : settle taken names = names := by
  induction names generalizing taken with
  | nil => rfl
  | cons name names ih =>
    obtain ⟨hname, hnames⟩ := List.forall_mem_cons.mp hfree
    obtain ⟨hothers, hapart⟩ := List.pairwise_cons.mp hapart
    have hfound : (attempts name).find? (isFree taken) = some name :=
      List.find?_cons_of_pos (isFree_eq_true_iff.mpr fun _ hfield ↦ hname hfield)
    -- The fields of this name are now taken, and the names that follow have none of them.
    have hrest : settle (taken ++ ofMethod name) names = names :=
      ih hapart fun other hother ↦
        List.disjoint_append_right.mpr ⟨hnames other hother, (hothers other hother).symm⟩
    rw [settle, hfound]
    exact congrArg (name :: ·) hrest

/-- Each method has a name that it gets in whatever order the methods are declared. -/
theorem assign_perm (h : Unnumbered methods reserved) :
    ∃ name : Method → String, proposals methods = methods.map name ∧
      ∀ others : List Method, others.Perm methods →
        assign others reserved = .ok (others.map name) := by
  refine ⟨proposal methods [], h.proposals_perm (.refl methods), fun others hperm ↦ ?_⟩
  have hproposals := h.perm_proposals hperm
  -- Being apart is symmetric, and so does not depend on the order either.
  have hsettle : settle reserved (proposals others) = proposals others := by
    refine settle_eq_self ?_ fun name hname ↦ h.free name (hproposals.mem_iff.mp hname)
    exact (hproposals.pairwise_iff fun hdisjoint ↦ hdisjoint.symm).mpr h.apart
  rw [assign_eq_ok_iff, hsettle]
  exact ⟨h.proposals_perm hperm, List.length_map _⟩

/-- Two overloads are told apart by their labels, two by the types of their parameters and two by
their results, and a property of the same protocol is called like two of them. -/
theorem assign_perm_overloads :
    let method (name label type : String) (returns : Bool) : Method := {
      name
      parameters := [{ name := "x", label? := some label, type := { base := type } }]
      result? := if returns then some { base := "Int" } else none
      labels_nodup := (List.nodup_singleton label).filter _
      names_nodup := List.nodup_singleton "x"
      result_not_void := by cases returns <;> simp [SwiftType.isVoid] }
    let methods := [method "save" "id" "Int" true, method "load" "_" "Int" true,
      method "save" "key" "Int" true, method "load" "_" "Data" true, method "run" "_" "Int" true,
      method "run" "_" "Int" false]
    let reserved := ["invokedSave", "stubbedSave"]
    let names := ["saveId", "loadXInt", "saveKey", "loadXData", "runXIntInt", "runXIntVoid"]
    Unnumbered methods reserved ∧ ∃ name : Method → String, names = methods.map name ∧
      ∀ others : List Method, others.Perm methods →
        assign others reserved = .ok (others.map name) := by
  intro method methods reserved names
  have hnames : proposals methods = names := by decide +kernel
  have hunnumbered : Unnumbered methods reserved := by
    constructor
    case separated =>
      have hseparated : ∀ method ∈ methods, 1 < (overloads methods method).length →
          ∃ distinction ∈ Distinction.all,
            distinction.separates (overloads methods method) = true := by decide +kernel
      intro method hmethod hlength
      obtain ⟨distinction, -, hdistinction⟩ := hseparated method hmethod hlength
      exact ⟨distinction, hdistinction⟩
    case apart =>
      have hnodup : (names.flatMap ofMethod).Nodup := by decide +kernel
      rw [hnames]
      exact (List.nodup_flatMap.mp hnodup).2
    case free =>
      have hfree : ∀ name ∈ names, ∀ field ∈ ofMethod name, field ∉ reserved := by decide +kernel
      rw [hnames]
      exact hfree
  obtain ⟨name, hmap, hassign⟩ := assign_perm hunnumbered
  exact ⟨hunnumbered, name, hnames ▸ hmap, hassign⟩

end TestDouble.FieldName
