/-!
# Splitting

A text cut at every separator.
-/

namespace TestDouble.Text

/-- The pieces between separators, empty ones included: one more than there are separators. -/
def splitWhere (isSeparator : Char → Bool) : List Char → List (List Char)
  | [] => [[]]
  | c :: cs =>
    if isSeparator c then [] :: splitWhere isSeparator cs
    else
      match splitWhere isSeparator cs with
      | [] => [[c]]
      | piece :: pieces => (c :: piece) :: pieces

theorem splitWhere_eq_singleton {isSeparator : Char → Bool} {cs : List Char}
    (h : ∀ c ∈ cs, isSeparator c = false) : splitWhere isSeparator cs = [cs] := by
  induction cs with
  | nil => rfl
  | cons c cs ih =>
    have hc := h c List.mem_cons_self
    rw [splitWhere, if_neg (by simp [hc]), ih fun d hd ↦ h d (List.mem_cons_of_mem _ hd)]

end TestDouble.Text
