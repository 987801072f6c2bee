/-!
# Results of a computation that may fail

When a mapped result is a value, and when it is a fault.
-/

namespace Except

variable {ε α β : Type _} {f : α → β} {result : Except ε α}

/-- The fault, if there is no value. -/
def toError? : Except ε α → Option ε
  | .ok _ => none
  | .error e => some e

@[simp, grind =] theorem map_eq_ok_iff {b : β} :
    result.map f = .ok b ↔ ∃ a, result = .ok a ∧ f a = b := by
  cases result <;> simp [Except.map]

@[simp] theorem map_eq_error_iff {e : ε} : result.map f = .error e ↔ result = .error e := by
  cases result <;> simp [Except.map]

@[simp] theorem toOption_eq_some_iff {a : α} : result.toOption = some a ↔ result = .ok a := by
  cases result <;> simp [Except.toOption]

@[simp] theorem toError?_eq_some_iff {e : ε} : result.toError? = some e ↔ result = .error e := by
  cases result <;> simp [toError?]

@[simp] theorem isOk_iff_exists : result.isOk = true ↔ ∃ a, result = .ok a := by
  cases result <;> simp [Except.isOk, Except.toBool]

@[simp, grind =] theorem pure_eq_ok_iff {a b : α} : (pure a : Except ε α) = .ok b ↔ a = b :=
  ⟨Except.ok.inj, congrArg _⟩

@[simp, grind =] theorem bind_eq_ok_iff {next : α → Except ε β} {b : β} :
    result >>= next = .ok b ↔ ∃ a, result = .ok a ∧ next a = .ok b := by
  cases result <;> simp [bind, Except.bind]

end Except
