import TestDouble.Proofs.Reader.Basic

/-!
# The laws of readers

It does not matter how a sequence of readers is put in brackets, or whether the items of a
repetition are changed one by one or all together. So a reader that gives more than another one, and
is otherwise built in the same way, is the other one up to a map.
-/

namespace TestDouble

namespace Reader

variable {α β : Type}

theorem map_apply (f : α → β) (read : Reader α) (scope : Scope) (tokens : List Token) :
    (f <$> read) scope tokens =
      let first := read scope tokens
      ⟨first.result.map f, first.rest, first.notices⟩ := by
  change (read >>= fun a ↦ pure (f a)) scope tokens = _
  rcases hread : read scope tokens with ⟨_ | a, rest, notices⟩
  · simp only [bind, hread, Except.map]
  · simp only [bind, hread, Except.map, pure, List.append_nil]

instance : LawfulMonad Reader := by
  refine LawfulMonad.mk' Reader (fun read ↦ ?_) (fun a next ↦ rfl) fun read next next' ↦ ?_
  · funext scope tokens
    rw [map_apply]
    rcases read scope tokens with ⟨_ | a, rest, notices⟩ <;> rfl
  · funext scope tokens
    rcases hread : read scope tokens with ⟨_ | a, rest, notices⟩
    · simp only [bind, hread]
    · rcases hnext : next a scope rest with ⟨_ | b, rest', notices'⟩ <;>
        simp only [bind, hread, hnext, List.append_assoc]

theorem ite_bind {p : Prop} [Decidable p] {read other : Reader α} {next : α → Reader β} :
    (if p then read else other) >>= next = if p then read >>= next else other >>= next :=
  apply_ite (· >>= next) p read other

/-- A turn with another item. -/
def Turn.map (f : α → β) : Turn α → Turn β
  | .stop => .stop
  | .last item => .last (f item)
  | .more item => .more (f item)

private theorem repeatFrom_map (f : α → β) (turn : Nat → Reader (Turn α)) (number : Nat)
    (scope : Scope) (tokens : List Token) :
    repeatFrom (fun number ↦ Turn.map f <$> turn number) number scope tokens =
      let others := repeatFrom turn number scope tokens
      ⟨others.result.map (List.map f), others.rest, others.notices⟩ := by
  induction hlength : tokens.length using Nat.strongRecOn generalizing tokens number with
  | ind length ih =>
    rw [repeatFrom.eq_def, repeatFrom.eq_def turn, map_apply]
    rcases turn number scope tokens with ⟨fault | _ | item | item, rest, notices⟩
    · rfl
    · rfl
    · rfl
    · simp only [Except.map, Turn.map]
      split
      · next hlt =>
        rw [ih rest.length (hlength ▸ hlt) (number + 1) rest rfl]
        rcases repeatFrom turn (number + 1) scope rest with ⟨_ | _, _, _⟩ <;> rfl
      · rfl

theorem numbered_map (f : α → β) (turn : Nat → Reader (Turn α)) :
    numbered (fun number ↦ Turn.map f <$> turn number) = List.map f <$> numbered turn := by
  funext scope tokens
  rw [map_apply, numbered, repeatFrom_map]
  rfl

end Reader

end TestDouble
