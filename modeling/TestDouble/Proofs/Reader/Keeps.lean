import TestDouble.Proofs.Reader.Basic

/-!
# What can be said of what is read

A reader takes tokens from the front, and what it gives depends on the tokens it took. So a fact
about its value may rest on a condition on these tokens, and the condition is put on one list, the
whole of what some outer reader takes: readers inside it take parts of the whole.

The rules follow the ways of composing readers. After a part whose value is known to be good, the
rest of a reader has to keep its own promise under that assumption only.
-/

namespace TestDouble.Reader

variable {α β : Type} {whole : List Token} {scope : Scope} {tokens : List Token}

variable (whole) in
/-- What is read comes off the front of the tokens, and is good where that is a part of `whole`. -/
def Keeps (good : α → Prop) (read : Reader α) (scope : Scope) (tokens : List Token) : Prop :=
  ∀ ⦃a : α⦄ ⦃rest : List Token⦄, Reads read scope tokens a rest →
    ∃ consumed, tokens = consumed ++ rest ∧ (consumed <:+: whole → good a)

namespace Keeps

variable {good good' : α → Prop} {read : Reader α}

theorem mono (h : Keeps whole good read scope tokens) (himp : ∀ a, good a → good' a) :
    Keeps whole good' read scope tokens := by
  intro a rest hread
  obtain ⟨consumed, htokens, hgood⟩ := h hread
  exact ⟨consumed, htokens, fun hpart ↦ himp a (hgood hpart)⟩

theorem and (h : Keeps whole good read scope tokens) (h' : Keeps whole good' read scope tokens) :
    Keeps whole (fun a ↦ good a ∧ good' a) read scope tokens := by
  intro a rest hread
  obtain ⟨consumed, htokens, hgood⟩ := h hread
  obtain ⟨consumed', htokens', hgood'⟩ := h' hread
  obtain rfl := List.append_cancel_right (htokens.symm.trans htokens')
  exact ⟨consumed, htokens, fun hpart ↦ ⟨hgood hpart, hgood' hpart⟩⟩

theorem and_of_reads (h : Keeps whole good read scope tokens)
    (h' : ∀ a rest, Reads read scope tokens a rest → good' a) :
    Keeps whole (fun a ↦ good' a ∧ good a) read scope tokens := by
  intro a rest hread
  obtain ⟨consumed, htokens, hgood⟩ := h hread
  exact ⟨consumed, htokens, fun hpart ↦ ⟨h' a rest hread, hgood hpart⟩⟩

theorem pure {a : α} (h : good a) : Keeps whole good (Pure.pure a) scope tokens := by
  intro b rest hread
  obtain ⟨rfl, rfl⟩ := reads_pure_iff.mp hread
  exact ⟨[], rfl, fun _ ↦ h⟩

theorem fail {cause : Cause} {line? : Option Nat} :
    Keeps whole good (fail cause line?) scope tokens :=
  fun _ _ hread ↦ (not_reads_fail hread).elim

theorem fail_bind {good : β → Prop} {cause : Cause} {line? : Option Nat} {next : α → Reader β} :
    Keeps whole good (Reader.fail cause line? >>= next) scope tokens := by
  intro b rest hread
  obtain ⟨a, mid, hfirst, -⟩ := reads_bind_iff.mp hread
  exact (not_reads_fail hfirst).elim

theorem bind {good : β → Prop} {good' : α → Prop} {next : α → Reader β}
    (h : Keeps whole good' read scope tokens)
    (hnext : ∀ a mid, Keeps whole (fun b ↦ good' a → good b) (next a) scope mid) :
    Keeps whole good (read >>= next) scope tokens := by
  intro b rest hread
  obtain ⟨a, mid, hfirst, hsecond⟩ := reads_bind_iff.mp hread
  obtain ⟨front, rfl, hfront⟩ := h hfirst
  obtain ⟨back, rfl, hback⟩ := hnext a mid hsecond
  refine ⟨front ++ back, (List.append_assoc ..).symm, fun hpart ↦ ?_⟩
  have hfirst := hfront ((List.prefix_append front back).isInfix.trans hpart)
  exact hback ((List.suffix_append front back).isInfix.trans hpart) hfirst

theorem map {good : β → Prop} {f : α → β} (h : Keeps whole (fun a ↦ good (f a)) read scope tokens) :
    Keeps whole good (f <$> read) scope tokens := by
  intro b rest hread
  obtain ⟨a, hfirst, rfl⟩ := reads_map_iff.mp hread
  exact h hfirst

theorem ite {p : Prop} [Decidable p] {other : Reader α}
    (h : p → Keeps whole good read scope tokens)
    (hother : ¬ p → Keeps whole good other scope tokens) :
    Keeps whole good (if p then read else other) scope tokens := by
  by_cases hp : p
  · rw [if_pos hp]
    exact h hp
  · rw [if_neg hp]
    exact hother hp

theorem ahead_bind {next : List Token → Reader α}
    (h : Keeps whole good (next tokens) scope tokens) :
    Keeps whole good (ahead >>= next) scope tokens :=
  fun _ _ hread ↦ h (reads_ahead_bind_iff.mp hread)

theorem sees_bind {text : String} {next : Bool → Reader α}
    (h : Keeps whole good (next (stands [text] tokens)) scope tokens) :
    Keeps whole good (sees text >>= next) scope tokens :=
  fun _ _ hread ↦ h (reads_sees_bind_iff.mp hread)

theorem tell_bind {notice : Notice} {next : Unit → Reader α}
    (h : Keeps whole good (next ()) scope tokens) :
    Keeps whole good (tell notice >>= next) scope tokens :=
  fun _ _ hread ↦ h (reads_tell_bind_iff.mp hread)

/-- A token in front of what is read. -/
theorem cons {token : Token}
    (h : Keeps whole (fun a ↦ token ∈ whole → good a) read scope tokens) {a : α} {rest : List Token}
    (hread : Reads read scope tokens a rest) :
    ∃ consumed, token :: tokens = consumed ++ rest ∧ (consumed <:+: whole → good a) := by
  obtain ⟨consumed, rfl, hgood⟩ := h hread
  refine ⟨token :: consumed, rfl, fun hpart ↦ ?_⟩
  have htoken : token ∈ whole := hpart.subset List.mem_cons_self
  exact hgood ((List.suffix_cons token consumed).isInfix.trans hpart) htoken

theorem next?_bind {token : Token} {next : Option Token → Reader α}
    (h : Keeps whole (fun a ↦ token ∈ whole → good a) (next (some token)) scope tokens) :
    Keeps whole good (next? >>= next) scope (token :: tokens) :=
  fun _ _ hread ↦ h.cons (reads_next?_bind_iff.mp hread)

theorem skip_bind {token : Token} {next : Unit → Reader α}
    (h : Keeps whole (fun a ↦ token ∈ whole → good a) (next ()) scope tokens) :
    Keeps whole good (skip >>= next) scope (token :: tokens) :=
  fun _ _ hread ↦ h.cons (reads_skip_bind_iff.mp hread)

theorem expect {text context : String} :
    Keeps whole (fun token ↦ token.is text = true ∧ token ∈ whole) (expect text context) scope
      tokens := by
  intro token rest hread
  obtain ⟨rfl, his⟩ := reads_expect_iff.mp hread
  exact ⟨[token], rfl, fun hpart ↦ ⟨his, hpart.subset List.mem_cons_self⟩⟩

theorem accept {text : String} : Keeps whole (fun _ ↦ True) (accept text) scope tokens := by
  intro accepted rest hread
  rcases reads_accept_iff.mp hread with ⟨-, token, rfl, -⟩ | ⟨-, -, rfl⟩
  · exact ⟨[token], rfl, fun _ ↦ trivial⟩
  · exact ⟨[], rfl, fun _ ↦ trivial⟩

end Keeps

/-! ## Repetition -/

/-- What holds of the item of a turn, if it has one. -/
def Turn.All (good : α → Prop) : Turn α → Prop
  | .stop => True
  | .last item | .more item => good item

namespace Keeps

variable {good : α → Prop} {turn : Nat → Reader (Turn α)} {number : Nat}

theorem repeatFrom
    (h : ∀ number scope tokens, Keeps whole (Turn.All good) (turn number) scope tokens) :
    Keeps whole (fun items ↦ ∀ item ∈ items, good item) (repeatFrom turn number) scope tokens := by
  intro items rest hread
  induction hread using Reads.repeatFrom_induction with
  | stop hturn =>
    obtain ⟨consumed, htokens, -⟩ := h _ _ _ hturn
    exact ⟨consumed, htokens, fun _ ↦ by simp⟩
  | last hturn | stuck hturn =>
    obtain ⟨consumed, htokens, hgood⟩ := h _ _ _ hturn
    exact ⟨consumed, htokens, fun hpart ↦ List.forall_mem_singleton.mpr (hgood hpart)⟩
  | more hturn _ _ ih =>
    obtain ⟨front, rfl, hfront⟩ := h _ _ _ hturn
    obtain ⟨back, rfl, hback⟩ := ih
    refine ⟨front ++ back, (List.append_assoc ..).symm, fun hpart ↦ ?_⟩
    have hfirst := hfront ((List.prefix_append front back).isInfix.trans hpart)
    have hrest := hback ((List.suffix_append front back).isInfix.trans hpart)
    exact List.forall_mem_cons.mpr ⟨hfirst, hrest⟩

theorem repeated {turn : Reader (Turn α)}
    (h : ∀ scope tokens, Keeps whole (Turn.All good) turn scope tokens) :
    Keeps whole (fun items ↦ ∀ item ∈ items, good item) (repeated turn) scope tokens :=
  repeatFrom fun _ ↦ h

theorem separated {item : Reader α} (h : ∀ scope tokens, Keeps whole good item scope tokens) :
    Keeps whole (fun items ↦ items ≠ [] ∧ ∀ item ∈ items, good item) (separated item) scope
      tokens := by
  have hturn (scope : Scope) (tokens : List Token) : Keeps whole (Turn.All good)
      (do if ← Reader.accept "," then return .more (← item) else return .stop) scope tokens := by
    refine .bind .accept fun accepted mid ↦ .ite (fun _ ↦ ?_) fun _ ↦ .pure fun _ ↦ trivial
    exact (h scope mid).bind fun item mid ↦ .pure fun hitem _ ↦ hitem
  refine (h scope tokens).bind fun first mid ↦ .bind (.repeated hturn) fun others mid ↦ .pure ?_
  exact fun hothers hfirst ↦ ⟨List.cons_ne_nil _ _, List.forall_mem_cons.mpr ⟨hfirst, hothers⟩⟩

end Keeps

end TestDouble.Reader
