import TestDouble.Fault
import TestDouble.SwiftType.Basic

/-!
# Method requirements

A method is what a draft declares, once it is known that callers can tell its parameters apart by
label and its body can tell them apart by name. Both facts are part of the type `Method`, and
`Draft.check` decides them.
-/

namespace TestDouble

/-! ## Parameters -/

/-- The label of a parameter that callers pass without a label. -/
def wildcard : String := "_"

structure Parameter where
  name : String
  type : SwiftType
  /-- The label as written. Without one, callers use the name. -/
  label? : Option String := none
  isVariadic : Bool := false
  deriving Repr

namespace Parameter

/-- What callers write before the argument. -/
def label (parameter : Parameter) : String :=
  parameter.label?.getD parameter.name

def isClosure (parameter : Parameter) : Bool :=
  parameter.type.isClosure && !parameter.isVariadic

/-- Whether the argument can be kept after the call returns. -/
def isStorable (parameter : Parameter) : Bool :=
  !parameter.isClosure || parameter.type.isEscaping

/-- The type of a tuple element that keeps the argument. -/
def storage (parameter : Parameter) : String :=
  if parameter.isVariadic then s!"[{parameter.type.storage}]" else parameter.type.storage

/-- The parameter as a signature declares it. -/
def declaration (parameter : Parameter) : String :=
  let names :=
    match parameter.label? with
    | some label => if label = parameter.name then label else s!"{label} {parameter.name}"
    | none => parameter.name
  s!"{names}: {parameter.type.declared}" ++ (if parameter.isVariadic then "..." else "")

/-- The labels that callers write, wildcards left out. -/
def writtenLabels (parameters : List Parameter) : List String :=
  (parameters.map label).filter (· ≠ wildcard)

/-- Why the parameters cannot be told apart, given the labels and names of those before them. -/
def clashFrom (labels names : List String) : List Parameter → Option Cause
  | [] => none
  | parameter :: parameters =>
    if parameter.label ≠ wildcard ∧ parameter.label ∈ labels then
      some (.duplicateLabel parameter.label)
    else if parameter.name ∈ names then some (.duplicateName parameter.name)
    else clashFrom (parameter.label :: labels) (parameter.name :: names) parameters

def clash? (parameters : List Parameter) : Option Cause :=
  clashFrom [] [] parameters

theorem writtenLabels_cons (parameter : Parameter) (parameters : List Parameter) :
    writtenLabels (parameter :: parameters) =
      if parameter.label = wildcard then writtenLabels parameters
      else parameter.label :: writtenLabels parameters := by
  by_cases hwildcard : parameter.label = wildcard <;> simp [writtenLabels, hwildcard]

/-- Parameters that do not clash can be told apart, also from those before them. -/
theorem nodup_of_clashFrom {labels names : List String} {parameters : List Parameter}
    (h : clashFrom labels names parameters = none) :
    (writtenLabels parameters).Nodup ∧ (parameters.map name).Nodup ∧
      (∀ label ∈ writtenLabels parameters, label ∉ labels) ∧
      ∀ name ∈ parameters.map Parameter.name, name ∉ names := by
  induction parameters generalizing labels names with
  | nil => simp [writtenLabels]
  | cons parameter parameters ih =>
    rw [clashFrom] at h
    split at h
    · cases h
    next hlabel =>
    split at h
    · cases h
    next hname =>
    obtain ⟨hlabels, hnames, hfresh, hnew⟩ := ih h
    have hfirst : parameter.name ∉ parameters.map Parameter.name :=
      fun hmem ↦ hnew _ hmem List.mem_cons_self
    have hnames' : ((parameter :: parameters).map Parameter.name).Nodup :=
      List.nodup_cons.mpr ⟨hfirst, hnames⟩
    have hnew' : ∀ name ∈ (parameter :: parameters).map Parameter.name, name ∉ names :=
      List.forall_mem_cons.mpr ⟨hname, fun name hmem hold ↦ hnew name hmem (.tail _ hold)⟩
    have hfresh' : ∀ label ∈ writtenLabels parameters, label ∉ labels :=
      fun label hmem hold ↦ hfresh label hmem (.tail _ hold)
    rw [writtenLabels_cons]
    split
    · exact ⟨hlabels, hnames', hfresh', hnew'⟩
    · next hwritten =>
      have hother : parameter.label ∉ writtenLabels parameters :=
        fun hmem ↦ hfresh _ hmem List.mem_cons_self
      have hold : parameter.label ∉ labels := fun hmem ↦ hlabel ⟨hwritten, hmem⟩
      exact ⟨List.nodup_cons.mpr ⟨hother, hlabels⟩, hnames',
        List.forall_mem_cons.mpr ⟨hold, hfresh'⟩, hnew'⟩

end Parameter

/-! ## Methods -/

/-- A method as written. -/
structure Method.Draft where
  name : String
  parameters : List Parameter := []
  /-- `none` for a method that returns nothing. -/
  result? : Option SwiftType := none
  genericClause : String := ""
  whereClause : String := ""
  effects : List String := []
  isStatic : Bool := false
  line? : Option Int := none
  deriving Repr

structure Method extends Method.Draft where
  labels_nodup : (Parameter.writtenLabels parameters).Nodup
  names_nodup : (parameters.map Parameter.name).Nodup
  result_not_void : ∀ type ∈ result?, type.isVoid = false

namespace Method

/-- What two declarations of one requirement agree on. -/
structure Identity where
  isStatic : Bool
  name : String
  parameters : List String
  result? : Option String
  deriving DecidableEq, Repr

namespace Draft

/-- The method that the draft declares. A result of `Void` is no result. -/
def check (draft : Draft) : Except Cause Method :=
  match h : Parameter.clash? draft.parameters with
  | some cause => .error cause
  | none =>
    .ok {
      draft with
      result? := draft.result?.filter fun type ↦ !type.isVoid
      labels_nodup := (Parameter.nodup_of_clashFrom h).1
      names_nodup := (Parameter.nodup_of_clashFrom h).2.1
      result_not_void := by simp +contextual [Option.filter_eq_some_iff] }

/-- The name with its labels, as in `mixed(unwrapped:optional:)`. -/
def selector (draft : Draft) : String :=
  let labels := String.join (draft.parameters.map fun parameter ↦ parameter.label ++ ":")
  s!"{draft.name}({labels})"

def identity (draft : Draft) : Identity where
  isStatic := draft.isStatic
  name := draft.name
  parameters := draft.parameters.map Parameter.declaration
  result? := draft.result?.map SwiftType.declared

end Draft

end Method

end TestDouble
