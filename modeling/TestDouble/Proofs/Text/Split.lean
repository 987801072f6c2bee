import TestDouble.Text.Blank
import TestDouble.Text.Split

/-!
# Joining and splitting

Texts that were joined come back when the whole is split at the separator and blanks are trimmed, if
they have no blank at their ends and do not hold the separator themselves. The number of pieces
tells whether they do: each separator makes one more of them.
-/

namespace TestDouble.Text

variable {isSeparator : Char → Bool} {cs front back : List Char}

/-! ## Splitting -/

theorem splitWhere_append {separator : Char} (h : ∀ c ∈ front, isSeparator c = false)
    (hseparator : isSeparator separator = true) :
    splitWhere isSeparator (front ++ separator :: back) = front :: splitWhere isSeparator back := by
  induction front with
  | nil => rw [List.nil_append, splitWhere, if_pos hseparator]
  | cons c front ih =>
    obtain ⟨hc, hfront⟩ := List.forall_mem_cons.mp h
    rw [List.cons_append, splitWhere, hc, if_neg Bool.false_ne_true, ih hfront]

private theorem length_splitWhere (isSeparator : Char → Bool) (cs : List Char) :
    (splitWhere isSeparator cs).length = cs.countP isSeparator + 1 := by
  induction cs with
  | nil => rfl
  | cons c cs ih =>
    rw [splitWhere]
    split
    · next hc => rw [List.length_cons, ih, List.countP_cons_of_pos hc]
    · next hc =>
      rw [List.countP_cons_of_neg hc, ← ih]
      split
      · next hnil => simp [hnil] at ih
      · next hpieces => rw [hpieces, List.length_cons, List.length_cons]

/-! ## Trimming -/

/-- The text has a first and a last character, and neither is blank. -/
structure Solid (cs : List Char) : Prop where
  head : ∃ c ∈ cs.head?, isBlank c = false
  last : ∃ c ∈ cs.getLast?, isBlank c = false

theorem solid_singleton {c : Char} (h : isBlank c = false) : Solid [c] :=
  ⟨⟨c, rfl, h⟩, ⟨c, rfl, h⟩⟩

theorem Solid.enclose (h : Solid front) (h' : Solid back) (cs : List Char) :
    Solid (front ++ cs ++ back) where
  head := by
    obtain ⟨c, hc, hblank⟩ := h.head
    exact ⟨c, by rw [List.append_assoc, List.head?_append, hc]; rfl, hblank⟩
  last := by
    obtain ⟨c, hc, hblank⟩ := h'.last
    exact ⟨c, by rw [List.getLast?_append, hc]; rfl, hblank⟩

theorem Solid.append (h : Solid front) (h' : Solid back) : Solid (front ++ back) := by
  have henclosed := h.enclose h' []
  rwa [List.append_nil] at henclosed

/-- Blanks around a text are trimmed. -/
theorem Solid.trimBlank_pad (h : Solid cs) (hfront : ∀ c ∈ front, isBlank c = true)
    (hback : ∀ c ∈ back, isBlank c = true) : trimBlank (front ++ cs ++ back) = cs := by
  obtain ⟨first, hfirst, hfirst'⟩ := h.head
  obtain ⟨last, hlast, hlast'⟩ := h.last
  obtain ⟨tail, rfl⟩ := List.head?_eq_some_iff.mp hfirst
  have hdrop : (front ++ (first :: tail) ++ back).dropWhile isBlank = first :: tail ++ back := by
    rw [List.append_assoc, List.dropWhile_append_of_pos hfront, List.cons_append,
      List.dropWhile_cons_of_neg (by simp [hfirst'])]
  obtain ⟨init, hinit⟩ := List.getLast?_eq_some_iff.mp hlast
  rw [trimBlank, hdrop, hinit, List.reverse_append,
    List.dropWhile_append_of_pos (by simpa using hback), List.reverse_append,
    List.reverse_singleton, List.singleton_append, List.dropWhile_cons_of_neg (by simp [hlast'])]
  simp

/-! ## Joining -/

variable {separator : Char} {pieces : List (List Char)}

/-- Pieces that are joined with a separator between blanks come back. -/
theorem trim_splitWhere_intercalate (hseparator : isBlank separator = false) (hne : pieces ≠ [])
    (hsolid : ∀ piece ∈ pieces, Solid piece) (hplain : ∀ piece ∈ pieces, separator ∉ piece) :
    (splitWhere (· = separator) ([' ', separator, ' '].intercalate pieces)).map trimBlank =
      pieces := by
  -- Every piece but the first has a blank left in front of it.
  have hfrom (front : List Char) (hfront : ∀ c ∈ front, isBlank c = true) :
      (splitWhere (· = separator) (front ++ [' ', separator, ' '].intercalate pieces)).map
        trimBlank = pieces := by
    have hspace : ∀ c ∈ [' '], isBlank c = true :=
      List.forall_mem_singleton.mpr (by decide +kernel)
    induction pieces generalizing front with
    | nil => exact absurd rfl hne
    | cons piece others ih =>
      obtain ⟨hpiece, hothers⟩ := List.forall_mem_cons.mp hsolid
      obtain ⟨hplain, hplains⟩ := List.forall_mem_cons.mp hplain
      have hclear {back : List Char} (hback : ∀ c ∈ back, isBlank c = true) :
          ∀ c ∈ front ++ piece ++ back, decide (c = separator) = false := by
        intro c hc
        rw [decide_eq_false_iff_not]
        rintro rfl
        rw [List.mem_append, List.mem_append] at hc
        rcases hc with (hc | hc) | hc
        · exact absurd (hfront _ hc) (by rw [hseparator]; decide)
        · exact hplain hc
        · exact absurd (hback _ hc) (by rw [hseparator]; decide)
      rcases others with _ | ⟨other, others⟩
      · rw [List.intercalate_singleton, ← List.append_nil (front ++ piece),
          splitWhere_eq_singleton (hclear (List.forall_mem_nil _)), List.map_singleton,
          hpiece.trimBlank_pad hfront (List.forall_mem_nil _)]
      · have hjoin : front ++ [' ', separator, ' '].intercalate (piece :: other :: others) =
            front ++ piece ++ [' '] ++
              separator :: ([' '] ++ [' ', separator, ' '].intercalate (other :: others)) := by
          rw [List.intercalate_cons_cons]
          simp
        rw [hjoin, splitWhere_append (hclear hspace) (decide_eq_true rfl), List.map_cons,
          hpiece.trimBlank_pad hfront hspace,
          ih (List.cons_ne_nil _ _) hothers hplains [' '] hspace]
  exact hfrom [] (List.forall_mem_nil _)

/-- Each separator inside a piece makes one more of them. -/
theorem length_splitWhere_intercalate (hseparator : isBlank separator = false)
    (hne : pieces ≠ []) :
    (splitWhere (· = separator) ([' ', separator, ' '].intercalate pieces)).length =
      pieces.length + pieces.flatten.count separator := by
  have hspace : separator ≠ ' ' := by
    rintro rfl
    exact absurd hseparator (by decide +kernel)
  rw [length_splitWhere]
  change List.count separator _ + 1 = _
  induction pieces with
  | nil => exact absurd rfl hne
  | cons piece others ih =>
    rcases others with _ | ⟨other, others⟩
    · simp [Nat.add_comm]
    · have ih := ih (List.cons_ne_nil _ _)
      rw [List.intercalate_cons_cons, List.count_append, List.count_append, List.flatten_cons,
        List.count_append, List.length_cons]
      have hmark : [' ', separator, ' '].count separator = 1 := by
        simp [hspace.symm]
      omega

end TestDouble.Text
