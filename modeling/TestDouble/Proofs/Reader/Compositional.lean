import TestDouble.Proofs.Reader.Advances

/-!
# What holds of all readers

Readers are made of a few steps in a few ways. A property that the steps have, and that passes from
parts to what is made of them, is a property of every reader, and it is enough to go through the
grammar once for all such properties.

Faults come in two kinds here: those of tokens that cannot be read, and those of what was read. And
a repetition has to pass a property on only if its turns advance, so that going through the grammar
also shows that no repetition in it breaks off.
-/

namespace TestDouble.Reader

/-- A property of the steps of reading that passes from parts to the whole. -/
structure Compositional (P : ∀ ⦃α : Type⦄, Reader α → Prop) : Prop where
  pure : ∀ {α : Type} (a : α), P (Pure.pure a : Reader α)
  bind : ∀ {α β : Type} {read : Reader α} {next : α → Reader β},
    P read → (∀ a, P (next a)) → P (read >>= next)
  /-- What is read may depend on the tokens ahead. -/
  onTokens : ∀ {α : Type} {read : List Token → Reader α}, (∀ tokens, P (read tokens)) →
    P fun scope tokens ↦ read tokens scope tokens
  inMember : ∀ {α : Type} (member : String) {read : Reader α}, P read → P (inMember member read)
  tell : ∀ notice, P (tell notice)
  fail : ∀ {α : Type} {cause : Cause} (line? : Option Nat), cause.kind = .parsing →
    P (fail cause line? : Reader α)
  refuse : ∀ {α : Type} {cause : Cause}, cause.kind = .signature → P (refuse cause : Reader α)
  next? : P next?
  group : ∀ bracket, P (group bracket)
  repeatFrom : ∀ {α : Type} {turn : Nat → Reader (Turn α)}, (∀ number, P (turn number)) →
    (∀ number, Advances (turn number)) → ∀ number, P (repeatFrom turn number)

variable {P : ∀ ⦃α : Type⦄, Reader α → Prop} {α β : Type} {read other : Reader α}

namespace Compositional

/-! ## Branches -/

theorem ite (_ : Compositional P) {p : Prop} [Decidable p] (hread : P read) (hother : P other) :
    P (if p then read else other) := by
  split <;> assumption

variable (h : Compositional P)
include h

theorem map {f : α → β} (hread : P read) : P (f <$> read) :=
  h.bind hread fun a ↦ h.pure (f a)

theorem either {p : Prop} [Decidable p] {next : α → Reader β} (hread : P read) (hother : P other)
    (hnext : ∀ a, P (next a)) : P (if p then read >>= next else other >>= next) :=
  h.ite (h.bind hread hnext) (h.bind hother hnext)

/-- A part that is read under a condition, before what is read in any case. -/
theorem optionally {p : Prop} [Decidable p] {next : Reader β} (hread : P read) (hnext : P next) :
    P (if p then read >>= fun _ ↦ next else next) :=
  h.ite (h.bind hread fun _ ↦ hnext) hnext

/-- A condition without which reading fails. -/
theorem guarded {p : Prop} [Decidable p] {next : Reader β} (hread : P read) (hnext : P next) :
    P (if p then next else read >>= fun _ ↦ next) :=
  h.ite hnext (h.bind hread fun _ ↦ hnext)

/-! ## Steps -/

theorem ahead : P ahead := by
  have hahead : Reader.ahead = fun scope tokens ↦ (Pure.pure tokens : Reader _) scope tokens := rfl
  rw [hahead]
  exact h.onTokens h.pure

theorem sees (text : String) : P (sees text) :=
  h.bind h.ahead fun _ ↦ h.pure _

theorem skip : P skip :=
  h.bind h.next? fun _ ↦ h.pure _

theorem accept (text : String) : P (accept text) :=
  h.bind (h.bind (h.sees text) fun _ ↦ h.ite h.next? (h.pure _)) fun _ ↦ h.pure _

/-- A token that has to be as wanted is taken once it is seen to be. -/
theorem taken {take : Reader Token} (wanted : Token → Bool) (cause : Option String → Cause)
    (hcause : ∀ found, (cause found).kind = .parsing)
    (htake : ∀ scope tokens, take scope tokens = match tokens with
      | token :: rest => if wanted token then ⟨.ok token, rest, []⟩
        else Reader.fail (cause (some token.text)) none scope tokens
      | [] => Reader.fail (cause none) none scope tokens) : P take := by
  have heq : take = fun scope tokens ↦ (match tokens with
      | token :: _ => if wanted token then (do Reader.skip; return token)
        else Reader.fail (cause (some token.text))
      | [] => Reader.fail (cause none) : Reader Token) scope tokens := by
    funext scope tokens
    rw [htake]
    cases tokens with
    | nil => rfl
    | cons token rest => by_cases hwanted : wanted token = true <;> simp only [hwanted] <;> rfl
  rw [heq]
  refine h.onTokens fun tokens ↦ ?_
  cases tokens with
  | nil => exact h.fail none (hcause none)
  | cons token rest => exact h.ite (h.bind h.skip fun _ ↦ h.pure token) (h.fail none (hcause _))

theorem expect (text context : String) : P (expect text context) :=
  h.taken (·.is text) (.expected text context) (fun _ ↦ rfl) fun _ tokens ↦ by cases tokens <;> rfl

theorem expectName (context : String) : P (expectName context) :=
  h.taken (·.isName) (.expectedName context) (fun _ ↦ rfl) fun _ tokens ↦ by cases tokens <;> rfl

end Compositional

/-! ## Tokens are not put back -/

private theorem recedes_repeatFrom {turn : Nat → Reader (Turn α)}
    (h : ∀ number, Recedes (turn number)) (number : Nat) : Recedes (repeatFrom turn number) := by
  intro scope tokens rest items hread
  induction hread using Reads.repeatFrom_induction with
  | stop hturn | last hturn | stuck hturn => exact h _ hturn
  | more _ hlt _ ih => exact Nat.le_trans ih (Nat.le_of_lt hlt)

theorem recedes_compositional : Compositional Recedes where
  pure _ _ _ _ _ hread := by
    obtain ⟨-, rfl⟩ := reads_pure_iff.mp hread
    exact Nat.le_refl _
  bind h hnext _ _ _ _ hread := by
    obtain ⟨a, mid, hfirst, hsecond⟩ := reads_bind_iff.mp hread
    exact Nat.le_trans (hnext a hsecond) (h hfirst)
  onTokens h _ tokens _ _ hread := h tokens ⟨hread.result_eq, hread.rest_eq⟩
  inMember _ _ h _ _ _ _ hread := h ⟨hread.result_eq, hread.rest_eq⟩
  tell _ _ _ _ _ hread := (reads_tell_iff.mp hread) ▸ Nat.le_refl _
  fail _ _ _ _ _ _ hread := (not_reads_fail hread).elim
  refuse _ _ _ _ _ hread := (not_reads_refuse hread).elim
  next? _ _ _ _ hread := by
    obtain ⟨-, rfl⟩ := reads_next?_iff.mp hread
    simp
  group _ _ _ _ _ hread := Nat.le_of_lt (takes_group hread)
  repeatFrom h _ := recedes_repeatFrom h

/-- A compositional property of readers that put no tokens back. -/
structure Receding (P : ∀ ⦃α : Type⦄, Reader α → Prop) : Prop extends Compositional P where
  recedes : ∀ {α : Type} {read : Reader α}, P read → Recedes read

theorem recedes_receding : Receding Recedes where
  toCompositional := recedes_compositional
  recedes := id

theorem Compositional.and_recedes (h : Compositional P) :
    Receding fun _ read ↦ P read ∧ Recedes read where
  pure a := ⟨h.pure a, recedes_compositional.pure a⟩
  bind hread hnext := ⟨h.bind hread.1 fun a ↦ (hnext a).1,
    recedes_compositional.bind hread.2 fun a ↦ (hnext a).2⟩
  onTokens hread := ⟨h.onTokens fun tokens ↦ (hread tokens).1,
    recedes_compositional.onTokens fun tokens ↦ (hread tokens).2⟩
  inMember member _ hread := ⟨h.inMember member hread.1,
    recedes_compositional.inMember member hread.2⟩
  tell notice := ⟨h.tell notice, recedes_compositional.tell notice⟩
  fail line? hcause := ⟨h.fail line? hcause, recedes_compositional.fail line? hcause⟩
  refuse hcause := ⟨h.refuse hcause, recedes_compositional.refuse hcause⟩
  next? := ⟨h.next?, recedes_compositional.next?⟩
  group bracket := ⟨h.group bracket, recedes_compositional.group bracket⟩
  repeatFrom hturn hadvances number := ⟨h.repeatFrom (fun n ↦ (hturn n).1) hadvances number,
    recedes_repeatFrom (fun n ↦ (hturn n).2) number⟩
  recedes := And.right

/-! ## Turns -/

/-- One turn of reading further items. -/
def commaTurn (item : Reader α) : Reader (Turn α) := do
  if ← accept "," then return .more (← item) else return .stop

theorem separated_eq (item : Reader α) : separated item = (do
    let first ← item
    let others ← repeated (commaTurn item)
    return first :: others) :=
  rfl

/-- Takes the next token, or the group that it opens. -/
def collectPart (token : Token) : Reader (Turn (List Token)) := do
  match [Bracket.round, .square, .curly].find? fun bracket ↦ token.is bracket.opener with
  | some bracket =>
    let inner ← group bracket
    let closer : Token := { kind := .punctuation, text := bracket.closer, line := token.line }
    return .more (token :: inner ++ [closer])
  | none =>
    skip
    return .more [token]

/-- One turn of collecting. -/
def collectTurn (stop : List Token → Bool) : Reader (Turn (List Token)) := do
  let tokens ← ahead
  if stop tokens then return .stop
  match tokens with
  | [] => fail .endOfText
  | token :: _ => collectPart token

theorem collectUntil_eq (stop : List Token → Bool) :
    collectUntil stop = List.flatten <$> repeated (collectTurn stop) :=
  rfl

/-! ## Repetitions -/

namespace Receding

variable (h : Receding P)
include h

theorem bind_takes {next : α → Reader β} (hread : P read ∧ Takes read) (hnext : ∀ a, P (next a)) :
    P (read >>= next) ∧ Takes (read >>= next) :=
  ⟨h.bind hread.1 hnext, hread.2.bind fun a ↦ h.recedes (hnext a)⟩

theorem repeated {turn : Reader (Turn α)} (hturn : P turn) (hadvances : Advances turn) :
    P (repeated turn) :=
  h.repeatFrom (fun _ ↦ hturn) (fun _ ↦ hadvances) 0

theorem commaTurn {item : Reader α} (hitem : P item) :
    P (commaTurn item) ∧ Advances (commaTurn item) := by
  have hmore : P (item >>= fun a ↦ Pure.pure (Turn.more a)) := h.bind hitem fun _ ↦ h.pure _
  refine ⟨h.bind (h.accept ",") fun _ ↦ h.ite hmore (h.pure _), fun scope tokens ↦ ?_⟩
  exact .accept_ite (Nat.le_refl _) (h.recedes hmore) (.pure id)

theorem separated {item : Reader α} (hitem : P item) : P (separated item) :=
  h.bind hitem fun _ ↦ h.bind (h.repeated (h.commaTurn hitem).1 (h.commaTurn hitem).2) fun _ ↦
    h.pure _

/-- A turn that reads an item asks for more where a comma follows. -/
theorem leavesBelow_item {item : Reader α} (hitem : P item) {scope : Scope} {tokens : List Token} :
    LeavesBelow tokens.length Turn.AsksForMore
      (do
        let a ← item
        if ← accept "," then return .more a else return .last a) scope tokens := by
  exact .bind fun a mid hread ↦
    .accept_ite (h.recedes hitem hread) (h.recedes (h.pure _)) (.pure id)

theorem collectTurn (stop : List Token → Bool) :
    P (collectTurn stop) ∧ Advances (collectTurn stop) := by
  refine ⟨h.bind h.ahead fun tokens ↦ h.ite (h.pure _) ?_, fun scope tokens ↦
    .ahead_bind (.ite (fun _ ↦ .pure id) fun _ ↦ ?_)⟩
  · cases tokens with
    | nil => exact h.fail none rfl
    | cons token rest =>
      dsimp only [collectPart]
      split
      · exact h.bind (h.group _) fun _ ↦ h.pure _
      · exact h.bind h.skip fun _ ↦ h.pure _
  · cases tokens with
    | nil => exact .fail
    | cons token rest =>
      dsimp only [collectPart]
      split
      · exact .bind_of_takes (Nat.le_refl _) takes_group fun _ ↦ h.recedes (h.pure _)
      · exact .skip_bind (.of_recedes (h.recedes (h.pure _)) (Nat.lt_succ_self _))

theorem collectUntil (stop : List Token → Bool) : P (collectUntil stop) :=
  h.bind (h.repeated (h.collectTurn stop).1 (h.collectTurn stop).2) fun _ ↦ h.pure _

end Receding

end TestDouble.Reader
