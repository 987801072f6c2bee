import TestDouble.Proofs.Reader.Compositional

/-!
# Readers that agree

Readers may be exchanged for others that do the same with the tokens at hand. For each way of
composing readers there is a rule that says on which tokens the parts have to agree. A repetition
comes to an end after no more turns than there are tokens, so it is of no matter what would be read
after these.
-/

namespace TestDouble.Reader

variable {α β : Type} {read read' : Reader α} {scope : Scope} {tokens : List Token}

theorem bind_congr {next next' : α → Reader β} (h : read scope tokens = read' scope tokens)
    (hnext : ∀ a mid, Reads read scope tokens a mid → next a scope mid = next' a scope mid) :
    (read >>= next) scope tokens = (read' >>= next') scope tokens := by
  simp only [bind, ← h]
  rcases hresult : (read scope tokens).result with fault | a
  · rfl
  · simp only [hnext a _ ⟨hresult, rfl⟩]

theorem bind_congr_right {next next' : α → Reader β}
    (hnext : ∀ a mid, Reads read scope tokens a mid → next a scope mid = next' a scope mid) :
    (read >>= next) scope tokens = (read >>= next') scope tokens :=
  bind_congr rfl hnext

theorem bind_congr_left {next : α → Reader β} (h : read scope tokens = read' scope tokens) :
    (read >>= next) scope tokens = (read' >>= next) scope tokens :=
  bind_congr h fun _ _ _ ↦ rfl

theorem ite_congr_reader {p : Prop} [Decidable p] {other other' : Reader α}
    (h : p → read scope tokens = read' scope tokens)
    (hother : ¬ p → other scope tokens = other' scope tokens) :
    (if p then read else other) scope tokens = (if p then read' else other') scope tokens := by
  by_cases hp : p
  · rw [if_pos hp, if_pos hp, h hp]
  · rw [if_neg hp, if_neg hp, hother hp]

theorem repeatFrom_congr {turn turn' : Nat → Reader (Turn α)}
    (h : ∀ number mid, mid.length ≤ tokens.length → turn number scope mid = turn' number scope mid)
    (number : Nat) :
    repeatFrom turn number scope tokens = repeatFrom turn' number scope tokens := by
  induction hlength : tokens.length using Nat.strongRecOn generalizing tokens number with
  | ind length ih =>
    have hothers (hlt : (turn number scope tokens).rest.length < tokens.length) :
        repeatFrom turn (number + 1) scope (turn number scope tokens).rest =
          repeatFrom turn' (number + 1) scope (turn number scope tokens).rest :=
      ih _ (hlength ▸ hlt) (fun n mid hle ↦ h n mid (Nat.le_trans hle (Nat.le_of_lt hlt))) _ rfl
    rw [repeatFrom.eq_def turn, repeatFrom.eq_def turn', ← h number tokens (Nat.le_refl _)]
    rcases hresult : (turn number scope tokens).result with fault | _ | item | item <;>
      simp only [hresult]
    by_cases hlt : (turn number scope tokens).rest.length < tokens.length
    · rw [if_pos hlt, if_pos hlt, hothers hlt]
    · rw [if_neg hlt, if_neg hlt]

theorem separated_congr {item item' : Reader α} (hrecedes : Recedes item)
    (h : ∀ mid, mid.length ≤ tokens.length → item scope mid = item' scope mid) :
    separated item scope tokens = separated item' scope tokens := by
  refine bind_congr (h tokens (Nat.le_refl _)) fun first mid hfirst ↦ bind_congr_left ?_
  refine repeatFrom_congr (fun _ mid' hle ↦ bind_congr_right fun accepted back haccept ↦ ?_) 0
  have hback := recedes_receding.accept "," haccept
  refine ite_congr_reader (fun _ ↦ bind_congr_left (h back ?_)) fun _ ↦ rfl
  exact Nat.le_trans (Nat.le_trans hback hle) (hrecedes hfirst)

/-! ## Repetitions end -/

/-- As many turns as are counted, and after them `others`. -/
def unroll (turn : Nat → Reader (Turn α)) (others : Reader (List α)) :
    Nat → Nat → Reader (List α)
  | 0, _ => others
  | count + 1, number => turn number >>= Turn.follow (unroll turn others count (number + 1))

/-- Turns that advance come to an end by themselves, before there are more of them than tokens. -/
theorem unroll_eq_repeatFrom {turn : Nat → Reader (Turn α)} (h : ∀ number, Advances (turn number))
    (others : Reader (List α)) {count : Nat} (hlt : tokens.length < count) (number : Nat) :
    unroll turn others count number scope tokens = repeatFrom turn number scope tokens := by
  induction count generalizing tokens number with
  | zero => exact absurd hlt (Nat.not_lt_zero _)
  | succ count ih =>
    rw [repeatFrom_eq h, unroll]
    refine bind_congr_right fun result mid hturn ↦ ?_
    cases result with
    | stop => rfl
    | last item => rfl
    | more item =>
      have hmid := h number scope tokens hturn trivial
      exact bind_congr_left (ih (by omega) (number + 1))

end TestDouble.Reader
