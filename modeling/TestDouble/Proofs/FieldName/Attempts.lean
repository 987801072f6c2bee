import TestDouble.Proofs.FieldName.Wordlike

/-!
# Names that are tried

Where the name proposed for a method is taken, it is tried with numbers behind it. Neither the
backticks that are taken off a name nor its upper case reach the number: all numbered names go on
from one stem, and the stem is no shorter than the name without a number. Hence no two of the names
that are tried for a method have a field in common, whatever the name is, and one field that is
taken stands in the way of one of them at most.
-/

namespace TestDouble.FieldName

variable {name other : String} {n : Nat}

/-! ## Numerals -/

theorem toString_nat_injective : Function.Injective (toString : Nat → String) := by
  intro m n h
  have hdigits : Nat.toDigits 10 m = Nat.toDigits 10 n := by
    simpa only [Nat.toString_eq_repr, Nat.toList_repr] using congrArg String.toList h
  simpa using congrArg (Nat.ofDigitChars 10 · 0) hdigits

private theorem isDigit_of_mem_numeral {c : Char} (h : c ∈ (toString n).toList) :
    c.isDigit = true := by
  rw [Nat.toString_eq_repr, Nat.toList_repr] at h
  exact Nat.isDigit_of_mem_toDigits (by decide) (by decide) h

theorem numeral_ne_nil : (toString n).toList ≠ [] := by
  rw [Nat.toString_eq_repr, Nat.toList_repr]
  exact Nat.toDigits_ne_nil

private theorem not_backtick_of_isDigit {c : Char} (h : c.isDigit = true) : ¬ c = '\x60' := by
  rintro rfl
  exact absurd h (by decide)

private theorem upperCase_of_isDigit {c : Char} (h : c.isDigit = true) :
    Text.upperCase c = [c] := by
  have hall : ∀ k < 10, Text.upperCase (Char.ofNat (0x30 + k)) = [Char.ofNat (0x30 + k)] := by
    decide +kernel
  have hbounds : 0x30 ≤ c.toNat ∧ c.toNat ≤ 0x39 := by
    simpa [Char.isDigit, UInt32.le_iff_toNat_le] using h
  obtain ⟨k, hk⟩ := Nat.exists_eq_add_of_le hbounds.1
  have hc : Char.ofNat (0x30 + k) = c := hk ▸ Char.ofNat_toNat c
  exact hc ▸ hall k (by omega)

/-! ## Numbered names -/

private theorem toList_bare_numbered (name : String) (n : Nat) :
    (bare (name ++ toString n)).toList =
      name.toList.dropWhile (· = '\x60') ++ (toString n).toList := by
  have hdrop : (name ++ toString n).toList.dropWhile (· = '\x60') =
      name.toList.dropWhile (· = '\x60') ++ (toString n).toList := by
    rw [String.toList_append, List.dropWhile_append]
    split
    · next hempty =>
      rw [List.isEmpty_iff.mp hempty, List.nil_append, List.dropWhile_eq_self_iff]
      intro hpos
      have hdigit := isDigit_of_mem_numeral (List.getElem_mem hpos)
      simpa using not_backtick_of_isDigit hdigit
    · rfl
  rw [toList_bare, hdrop, List.rdropWhile_eq_self_iff]
  intro hne
  rw [List.getLast_append_of_right_ne_nil _ _ numeral_ne_nil]
  have hdigit := isDigit_of_mem_numeral (List.getLast_mem (numeral_ne_nil (n := n)))
  simpa using not_backtick_of_isDigit hdigit

/-- All numbered names go on from one stem. -/
theorem exists_stem (name : String) :
    ∃ stem : String, (capitalized name).length ≤ stem.length ∧
      ∀ n : Nat, capitalized (name ++ toString n) = stem ++ toString n := by
  have hbare : (bare name).toList <+: name.toList.dropWhile (· = '\x60') := by
    rw [toList_bare]
    exact List.rdropWhile_prefix ..
  rcases hfront : name.toList.dropWhile (· = '\x60') with _ | ⟨c, cs⟩
  · -- Nothing is left of the name, so the numeral's own first digit goes into upper case.
    refine ⟨"", ?_, fun n ↦ ?_⟩
    · rw [hfront, List.prefix_nil] at hbare
      simp [capitalized, hbare]
    · obtain ⟨d, ds, hdigits⟩ := List.exists_cons_of_ne_nil (numeral_ne_nil (n := n))
      have hd : d.isDigit = true := isDigit_of_mem_numeral (hdigits ▸ List.mem_cons_self)
      rw [capitalized, toList_bare_numbered, hfront, hdigits]
      simp only [List.nil_append, upperCase_of_isDigit hd, List.cons_append]
      rw [← hdigits, String.ofList_toList, String.empty_append]
  · refine ⟨String.ofList (Text.upperCase c ++ cs), ?_, fun n ↦ ?_⟩
    · rw [hfront] at hbare
      rw [capitalized]
      split
      · simp
      · next c' cs' hlist =>
        rw [hlist, List.cons_prefix_cons] at hbare
        obtain ⟨rfl, hprefix⟩ := hbare
        simpa using hprefix.length_le
    · rw [capitalized, toList_bare_numbered, hfront]
      simp only [List.cons_append]
      rw [← List.append_assoc, String.ofList_append, String.ofList_toList]

/-! ## Fields -/

theorem invoked_append_ne_stubbed_append (back back' : String) :
    "invoked" ++ back ≠ "stubbed" ++ back' := by
  intro h
  simpa using congrArg (·.toList.head?) h

/-- The fields of one method have names of their own. -/
theorem nodup_ofMethod (name : String) : (ofMethod name).Nodup := by
  have hparameters : invoked name ≠ invokedParameters name := by
    intro h
    simpa [invoked, invokedParameters] using congrArg String.length h
  have hflag : invoked name ≠ stubbedResult name := by
    rw [invoked, stubbedResult, String.append_assoc]
    exact invoked_append_ne_stubbed_append _ _
  have hresult : invokedParameters name ≠ stubbedResult name := by
    rw [invokedParameters, stubbedResult, String.append_assoc, String.append_assoc]
    exact invoked_append_ne_stubbed_append _ _
  simp [ofMethod, hparameters, hflag, hresult]

/-- Methods whose names are apart in upper case, and stay so where one is followed by the word for
the arguments, have no field in common. -/
theorem disjoint_ofMethod (hne : capitalized name ≠ capitalized other)
    (hleft : capitalized name ++ "Parameters" ≠ capitalized other)
    (hright : capitalized name ≠ capitalized other ++ "Parameters") :
    (ofMethod name).Disjoint (ofMethod other) := by
  have hkinds (back back' : String) : "stubbed" ++ back ≠ "invoked" ++ back' :=
    (invoked_append_ne_stubbed_append back' back).symm
  simp only [ofMethod, invoked, invokedParameters, stubbedResult, String.append_assoc,
    List.disjoint_cons_left, List.disjoint_nil_left, List.mem_cons, List.not_mem_nil, or_false,
    String.append_right_inj, String.append_left_inj, invoked_append_ne_stubbed_append, hkinds,
    hne, hleft, hright, not_false_eq_true, and_self]

/-- What ends in the word for the arguments does not end in a numeral. -/
theorem append_parameters_ne_numbered (front stem : String) (n : Nat) :
    front ++ "Parameters" ≠ stem ++ toString n := by
  intro h
  have hlast := congrArg (·.toList.getLast?) h
  simp only [String.toList_append, List.getLast?_append,
    List.getLast?_eq_some_getLast (numeral_ne_nil (n := n)), Option.some_or] at hlast
  have hend : (toString n).toList.getLast numeral_ne_nil = 's' := (Option.some.inj hlast).symm
  have hdigit := isDigit_of_mem_numeral (List.getLast_mem (numeral_ne_nil (n := n)))
  rw [hend] at hdigit
  exact absurd hdigit (by decide)

/-- No two of the names that are tried have a field in common. -/
theorem pairwise_disjoint_attempts (name : String) :
    (attempts name).Pairwise fun attempt other ↦ (ofMethod attempt).Disjoint (ofMethod other) := by
  obtain ⟨stem, hlength, hstem⟩ := exists_stem name
  have hlonger (n : Nat) : (capitalized name).length < (stem ++ toString n).length := by
    have hnumeral : 0 < (toString n).length := by
      rw [← String.length_toList, List.length_pos_iff]
      exact numeral_ne_nil
    rw [String.length_append]
    omega
  refine List.pairwise_cons.mpr ⟨?_, ?_⟩
  · -- A numbered name is longer than the plain one and does not end in the word for the arguments.
    rintro _ hnumbered
    obtain ⟨i, -, rfl⟩ := List.mem_map.mp hnumbered
    have hlonger := hlonger (i + 2)
    refine disjoint_ofMethod ?_ ?_ ?_
    · rw [hstem]
      exact fun h ↦ hlonger.ne (congrArg String.length h)
    · rw [hstem]
      exact append_parameters_ne_numbered _ _ _
    · rw [hstem]
      intro h
      have hlength := congrArg String.length h
      rw [String.length_append] at hlength
      omega
  · -- Numbered names share a stem, so that their numerals tell them apart.
    rw [List.pairwise_map]
    refine (List.nodup_range (n := attemptLimit - 1)).imp fun {i j} hne ↦ ?_
    refine disjoint_ofMethod ?_ ?_ ?_
    · rw [hstem, hstem, Ne, String.append_right_inj, toString_nat_injective.eq_iff]
      omega
    · rw [hstem (j + 2)]
      exact append_parameters_ne_numbered _ _ _
    · rw [hstem (i + 2)]
      exact (append_parameters_ne_numbered _ _ _).symm

end TestDouble.FieldName
