import Mathlib.Data.List.DropRight
import TestDouble.FieldName.Overload
import TestDouble.Proofs.Token.Identifier

/-!
# Field names that are identifiers

A field name begins with a word and goes on with names of the protocol, their backticks taken off
and their first characters in upper case. It is an identifier if these names are made of characters
of names: reserved words are, but a name in backticks can hold any characters, and in upper case a
letter can become a letter with a mark, which is no character of names.

Overloads get names with words of their signatures and numbers behind them. These are made of
characters of names as well, if the labels and types in the signatures are.
-/

namespace TestDouble.FieldName

open Token

/-- The text is made of characters of names. -/
def Worded (text : String) : Prop :=
  ∀ d ∈ text.toList, isNameRest d = true

instance (text : String) : Decidable (Worded text) :=
  List.decidableBAll (isNameRest · = true) text.toList

/-- With its first character in upper case the name is made of characters of names. -/
def Wordlike (name : String) : Prop :=
  Worded (capitalized name)

instance (name : String) : Decidable (Wordlike name) :=
  inferInstanceAs (Decidable (Worded _))

variable {front back name : String}

@[simp] theorem worded_append_iff : Worded (front ++ back) ↔ Worded front ∧ Worded back := by
  simp only [Worded, String.toList_append, List.forall_mem_append]

/-! ## Fields -/

theorem identifies_append_iff (hfront : front ∈ ["Mock", "invoked", "stubbed"]) :
    Identifies (front ++ back) ↔ Worded back := by
  have hwords : ∀ word ∈ ["Mock", "invoked", "stubbed"], Spelled .identifier word.toList ∧
      '\x60' ∉ word.toList ∧ ∀ keyword ∈ keywords, ¬ word.toList <+: keyword.toList := by
    decide +kernel
  obtain ⟨hspelled, hplain, hkeywords⟩ := hwords front hfront
  rw [identifies_iff_spelled, String.toList_append]
  exact spelled_append_iff hspelled hplain hkeywords

@[simp] theorem identifies_invoked_iff : Identifies (invoked name) ↔ Wordlike name :=
  identifies_append_iff (by decide)

@[simp] theorem identifies_stubbed_iff : Identifies (stubbed name) ↔ Wordlike name :=
  identifies_append_iff (by decide)

@[simp]
theorem identifies_invokedParameters_iff : Identifies (invokedParameters name) ↔ Wordlike name := by
  rw [invokedParameters, String.append_assoc, identifies_append_iff (by decide), worded_append_iff]
  exact and_iff_left (by decide +kernel)

@[simp] theorem identifies_stubbedResult_iff : Identifies (stubbedResult name) ↔ Wordlike name := by
  rw [stubbedResult, String.append_assoc, identifies_append_iff (by decide), worded_append_iff]
  exact and_iff_left (by decide +kernel)

@[simp] theorem identifies_stubbedClosure_iff {parameter : String} :
    Identifies (stubbedClosure name parameter) ↔ Wordlike name ∧ Wordlike parameter := by
  rw [stubbedClosure, String.append_assoc, String.append_assoc, identifies_append_iff (by decide),
    worded_append_iff, worded_append_iff]
  exact and_congr_right fun _ ↦ and_iff_left (by decide +kernel)

/-! ## Names of overloads -/

private theorem ne_backtick_of_worded (h : Worded back) {d : Char} (hd : d ∈ back.toList) :
    d ≠ '\x60' := by
  rintro rfl
  exact absurd (h _ hd) (by decide +kernel)

theorem toList_bare (name : String) : (bare name).toList =
    (name.toList.dropWhile (· = '\x60')).rdropWhile (· = '\x60') :=
  String.toList_ofList

private theorem bare_ne_of_nameable (h : Nameable name) : bare name ≠ "" := by
  obtain ⟨d, hd, hne⟩ := h.exists_ne_backtick
  intro hbare
  have hall : ∀ c ∈ name.toList.dropWhile (· = '\x60'), c = '\x60' := by
    simpa [toList_bare, List.rdropWhile_eq_nil_iff] using congrArg String.toList hbare
  have hhead := List.head?_dropWhile_not (· = '\x60') name.toList
  rcases hdrop : name.toList.dropWhile (· = '\x60') with _ | ⟨c, cs⟩
  · exact hne (by simpa using List.dropWhile_eq_nil_iff.mp hdrop d hd)
  · rw [hdrop] at hall hhead
    exact absurd (hall c List.mem_cons_self) (by simpa using hhead)

/-- No backtick is left at either end. -/
theorem exists_bare_eq (hname : bare name ≠ "") :
    ∃ c cs, (bare name).toList = c :: cs ∧ c ≠ '\x60' ∧ (c :: cs).getLast? ≠ some '\x60' := by
  have hbare := toList_bare name
  rcases hlist : (bare name).toList with _ | ⟨c, cs⟩
  · exact absurd (String.toList_eq_nil_iff.mp hlist) hname
  refine ⟨c, cs, rfl, ?_, fun hlast ↦ ?_⟩
  · rw [hlist] at hbare
    have hprefix : c :: cs <+: name.toList.dropWhile (· = '\x60') :=
      hbare ▸ List.rdropWhile_prefix ..
    have hhead := List.head?_dropWhile_not (· = '\x60') name.toList
    obtain ⟨rest, hrest⟩ := hprefix
    rw [← hrest] at hhead
    simpa using hhead
  · rw [← hlist, hbare] at hlast
    have hne : (name.toList.dropWhile (· = '\x60')).rdropWhile (· = '\x60') ≠ [] := by
      rw [← hbare, hlist]
      exact List.cons_ne_nil c cs
    rw [List.getLast?_eq_some_getLast hne] at hlast
    exact List.rdropWhile_last_not _ _ hne (decide_eq_true (Option.some.inj hlast))

/-- No backticks are taken off behind a bare name. -/
theorem bare_append (hname : bare name ≠ "") (hback : Worded back) :
    bare (bare name ++ back) = bare name ++ back := by
  obtain ⟨c, cs, hlist, hc, hlast⟩ := exists_bare_eq hname
  have hdrop : (c :: cs ++ back.toList).dropWhile (· = '\x60') = c :: cs ++ back.toList :=
    List.dropWhile_cons_of_neg (by simpa using hc)
  -- The last character is one of those behind, or else that of the bare name.
  have hkeep : (c :: cs ++ back.toList).rdropWhile (· = '\x60') = c :: cs ++ back.toList := by
    refine List.rdropWhile_eq_self_iff.mpr fun hne hend ↦ ?_
    have hend := (List.getLast?_eq_some_getLast hne).trans (congrArg some (of_decide_eq_true hend))
    rw [List.getLast?_append, Option.or_eq_some_iff] at hend
    rcases hend with hend | ⟨-, hend⟩
    · exact ne_backtick_of_worded hback (List.mem_of_getLast? hend) rfl
    · exact hlast hend
  have htoList : (bare name ++ back).toList = c :: cs ++ back.toList := by
    rw [String.toList_append, hlist]
  rw [bare, htoList, hdrop]
  exact (congrArg String.ofList hkeep).trans (htoList ▸ String.ofList_toList)

theorem wordlike_append (hname : bare name ≠ "") (h : Wordlike name) (hback : Worded back) :
    Wordlike (bare name ++ back) := by
  obtain ⟨c, cs, hlist, -, -⟩ := exists_bare_eq hname
  have hcapitalized : capitalized (bare name ++ back) = capitalized name ++ back := by
    simp only [capitalized, bare_append hname hback, String.toList_append, hlist, List.cons_append]
    rw [← List.append_assoc, String.ofList_append, String.ofList_toList]
  rw [Wordlike, hcapitalized, worded_append_iff]
  exact ⟨h, hback⟩

private theorem worded_toString (n : Nat) : Worded (toString n) :=
  fun _ ↦ isNameRest_of_mem_toString

private theorem worded_join {words : List String} (h : ∀ word ∈ words, Worded word) :
    Worded (String.join words) := by
  intro d hd
  rw [String.toList_join, List.mem_flatMap] at hd
  obtain ⟨word, hword, hd⟩ := hd
  exact h word hword d hd

private theorem worded_optionalityWord (optionality : Optionality) :
    Worded (optionalityWord optionality) := by
  cases optionality <;> decide +kernel

/-- All that field names take from a method is made of characters of names. -/
structure Regular (method : Method) : Prop where
  name : Wordlike method.name
  parameters : ∀ parameter ∈ method.parameters,
    Worded (parameterWord parameter) ∧ Worded (typeWord parameter.type.base)
  result : ∀ type ∈ method.result?, Worded (typeWord type.base)

namespace Regular

variable {method : Method}

theorem typedParameterWord (h : Regular method) {parameter : Parameter}
    (hparameter : parameter ∈ method.parameters) : Worded (typedParameterWord parameter) := by
  obtain ⟨hword, htype⟩ := h.parameters parameter hparameter
  have hvariadic : Worded (if parameter.isVariadic then "Variadic" else "") := by
    split <;> decide +kernel
  simp only [FieldName.typedParameterWord, worded_append_iff]
  exact ⟨⟨⟨hword, htype⟩, worded_optionalityWord _⟩, hvariadic⟩

theorem resultWord (h : Regular method) : Worded (resultWord method.result?) := by
  rcases hresult : method.result? with _ | type
  · decide +kernel
  · exact worded_append_iff.mpr ⟨h.result type hresult, worded_optionalityWord _⟩

theorem suffix (h : Regular method) (distinction : Distinction) :
    Worded (distinction.suffix method) := by
  have htyped : Worded (String.join (method.parameters.map FieldName.typedParameterWord)) :=
    worded_join (List.forall_mem_map.mpr fun _ ↦ h.typedParameterWord)
  cases distinction with
  | labels =>
    exact worded_join (List.forall_mem_map.mpr fun parameter hmem ↦ (h.parameters parameter hmem).1)
  | types => exact htyped
  | results => exact worded_append_iff.mpr ⟨htyped, h.resultWord⟩

/-- The name proposed for a method goes on with characters of names. -/
theorem exists_proposal_eq (h : Regular method) (methods earlier : List Method) :
    ∃ back, Worded back ∧ proposal methods earlier method = bare method.name ++ back := by
  rw [proposal]
  split
  · exact ⟨"", by decide, (String.append_empty).symm⟩
  split
  · next distinction _ => exact ⟨_, h.suffix distinction, rfl⟩
  · exact ⟨_, worded_append_iff.mpr ⟨h.suffix .labels, worded_toString _⟩, String.append_assoc ..⟩

end Regular

private theorem exists_attempt_eq {attempt : String} (hback : Worded back)
    (hattempt : attempt ∈ attempts (front ++ back)) :
    ∃ back', Worded back' ∧ attempt = front ++ back' := by
  rcases List.mem_cons.mp hattempt with rfl | hnumbered
  · exact ⟨back, hback, rfl⟩
  · obtain ⟨i, -, rfl⟩ := List.mem_map.mp hnumbered
    exact ⟨_, worded_append_iff.mpr ⟨hback, worded_toString _⟩, String.append_assoc ..⟩

private theorem exists_attempts_of_mem_settle {taken names : List String} {settled : String}
    (h : settled ∈ settle taken names) : ∃ name ∈ names, settled ∈ attempts name := by
  induction names generalizing taken with
  | nil => cases h
  | cons name names ih =>
    rw [settle] at h
    split at h
    · next found hfound =>
      rcases List.mem_cons.mp h with rfl | hmem
      · exact ⟨name, List.mem_cons_self, List.mem_of_find?_eq_some hfound⟩
      · obtain ⟨other, hother, hattempt⟩ := ih hmem
        exact ⟨other, List.mem_cons_of_mem _ hother, hattempt⟩
    · cases h

/-- The names settled on for regular methods are made of characters of names. -/
theorem wordlike_of_mem_assign {methods : List Method} {reserved names : List String}
    (h : assign methods reserved = .ok names) (hnames : ∀ method ∈ methods, Nameable method.name)
    (hregular : ∀ method ∈ methods, Regular method) (hname : name ∈ names) : Wordlike name := by
  have hsettled : name ∈ settle reserved (proposals methods) := by
    simp only [assign] at h
    split at h
    · cases h
    · exact Except.ok.inj h ▸ hname
  obtain ⟨proposed, hproposed, hattempt⟩ := exists_attempts_of_mem_settle hsettled
  obtain ⟨⟨method, i⟩, hmem, rfl⟩ := List.mem_map.mp hproposed
  have hmem := List.fst_mem_of_mem_zipIdx hmem
  have hmethod := hregular method hmem
  obtain ⟨back, hback, heq⟩ := hmethod.exists_proposal_eq methods (methods.take i)
  dsimp only at hattempt
  rw [heq] at hattempt
  obtain ⟨back', hback', rfl⟩ := exists_attempt_eq hback hattempt
  exact wordlike_append (bare_ne_of_nameable (hnames method hmem)) hmethod.name hback'

end TestDouble.FieldName
