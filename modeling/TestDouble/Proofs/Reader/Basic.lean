import Mathlib.Data.List.Forall2
import Mathlib.Logic.Basic
import TestDouble.Proofs.Except
import TestDouble.Reader

/-!
# What readers read

A reading is described by the value it gives and the tokens it leaves; what it has to tell is of no
influence. For each way of composing readers there is a rule that says when the composed reader
gives a value, in terms of its parts. A rule of the grammar is opened by rewriting with these, and
no reader has to be unfolded.
-/

namespace TestDouble.Reader

variable {α β : Type} {read : Reader α} {next : α → Reader β} {scope : Scope}
  {tokens rest : List Token}

/-! ## Sequences and repetitions, faults included -/

theorem bind_of_error {fault : Fault} (h : (read scope tokens).result = .error fault) :
    ((read >>= next) scope tokens).result = .error fault ∧
      ((read >>= next) scope tokens).rest = (read scope tokens).rest := by
  simp only [bind, h, and_self]

theorem bind_of_ok {a : α} (h : (read scope tokens).result = .ok a) :
    ((read >>= next) scope tokens).result = (next a scope (read scope tokens).rest).result ∧
      ((read >>= next) scope tokens).rest = (next a scope (read scope tokens).rest).rest := by
  simp only [bind, h, and_self]

section Repetition

variable {turn : Nat → Reader (Turn α)} {number : Nat}

theorem repeatFrom_of_error {fault : Fault} (h : (turn number scope tokens).result = .error fault) :
    (repeatFrom turn number scope tokens).result = .error fault ∧
      (repeatFrom turn number scope tokens).rest = (turn number scope tokens).rest := by
  rw [repeatFrom]
  simp only [h, and_self]

theorem repeatFrom_of_stop (h : (turn number scope tokens).result = .ok .stop) :
    (repeatFrom turn number scope tokens).result = .ok [] ∧
      (repeatFrom turn number scope tokens).rest = (turn number scope tokens).rest := by
  rw [repeatFrom]
  simp only [h, and_self]

theorem repeatFrom_of_last {a : α} (h : (turn number scope tokens).result = .ok (.last a)) :
    (repeatFrom turn number scope tokens).result = .ok [a] ∧
      (repeatFrom turn number scope tokens).rest = (turn number scope tokens).rest := by
  rw [repeatFrom]
  simp only [h, and_self]

theorem repeatFrom_of_more {a : α} (h : (turn number scope tokens).result = .ok (.more a))
    (hrest : (turn number scope tokens).rest.length < tokens.length) :
    (repeatFrom turn number scope tokens).result =
        ((repeatFrom turn (number + 1) scope (turn number scope tokens).rest).result.map
          (a :: ·)) ∧
      (repeatFrom turn number scope tokens).rest =
        (repeatFrom turn (number + 1) scope (turn number scope tokens).rest).rest := by
  rw [repeatFrom]
  simp only [h, if_pos hrest, and_self]

theorem repeatFrom_of_stuck {a : α} (h : (turn number scope tokens).result = .ok (.more a))
    (hrest : ¬ (turn number scope tokens).rest.length < tokens.length) :
    (repeatFrom turn number scope tokens).result = .ok [a] ∧
      (repeatFrom turn number scope tokens).rest = (turn number scope tokens).rest := by
  rw [repeatFrom]
  simp only [h, if_neg hrest, and_self]

end Repetition

/-! ## Successful readings -/

/-- The reader gives a value for the tokens and leaves the rest. -/
structure Reads (read : Reader α) (scope : Scope) (tokens : List Token) (a : α)
    (rest : List Token) : Prop where
  result_eq : (read scope tokens).result = .ok a
  rest_eq : (read scope tokens).rest = rest

theorem Reads.value_unique {a a' : α} {rest' : List Token} (h : Reads read scope tokens a rest)
    (h' : Reads read scope tokens a' rest') : a = a' ∧ rest = rest' :=
  ⟨Except.ok.inj (h.result_eq.symm.trans h'.result_eq), h.rest_eq.symm.trans h'.rest_eq⟩

@[simp]
theorem reads_pure_iff {a b : α} : Reads (pure a) scope tokens b rest ↔ a = b ∧ tokens = rest :=
  ⟨fun ⟨hresult, hrest⟩ ↦ ⟨Except.ok.inj hresult, hrest⟩,
    fun ⟨hvalue, hrest⟩ ↦ ⟨congrArg _ hvalue, hrest⟩⟩

theorem Reads.pure {a : α} : Reads (Pure.pure a) scope tokens a tokens :=
  reads_pure_iff.mpr ⟨rfl, rfl⟩

theorem reads_bind_iff {b : β} : Reads (read >>= next) scope tokens b rest ↔
    ∃ a mid, Reads read scope tokens a mid ∧ Reads (next a) scope mid b rest := by
  constructor
  · rintro ⟨hresult, hrest⟩
    rcases h : (read scope tokens).result with fault | a
    · rw [(bind_of_error h).1] at hresult
      cases hresult
    · rw [(bind_of_ok h).1] at hresult
      rw [(bind_of_ok h).2] at hrest
      exact ⟨a, _, ⟨h, rfl⟩, ⟨hresult, hrest⟩⟩
  · rintro ⟨a, mid, ⟨h, rfl⟩, ⟨hresult, hrest⟩⟩
    exact ⟨(bind_of_ok h).1.trans hresult, (bind_of_ok h).2.trans hrest⟩

@[simp] theorem reads_map_iff {f : α → β} {b : β} : Reads (f <$> read) scope tokens b rest ↔
    ∃ a, Reads read scope tokens a rest ∧ f a = b := by
  refine reads_bind_iff.trans ⟨?_, ?_⟩
  · rintro ⟨a, mid, hread, hpure⟩
    obtain ⟨rfl, rfl⟩ := reads_pure_iff.mp hpure
    exact ⟨a, hread, rfl⟩
  · rintro ⟨a, hread, rfl⟩
    exact ⟨a, rest, hread, .pure⟩

theorem reads_ite_iff {p : Prop} [Decidable p] {other : Reader α} {a : α} :
    Reads (if p then read else other) scope tokens a rest ↔
      p ∧ Reads read scope tokens a rest ∨ ¬ p ∧ Reads other scope tokens a rest := by
  by_cases h : p <;> simp [h]

@[simp] theorem not_reads_fail {cause : Cause} {line? : Option Nat} {a : α} :
    ¬ Reads (fail cause line?) scope tokens a rest := by
  rintro ⟨hresult, -⟩
  cases hresult

@[simp] theorem not_reads_refuse {cause : Cause} {a : α} :
    ¬ Reads (refuse cause) scope tokens a rest := by
  rintro ⟨hresult, -⟩
  cases hresult

@[simp] theorem reads_tell_iff {notice : Notice} {u : Unit} :
    Reads (tell notice) scope tokens u rest ↔ tokens = rest :=
  ⟨fun ⟨_, hrest⟩ ↦ hrest, fun hrest ↦ ⟨rfl, hrest⟩⟩

@[simp] theorem reads_ahead_iff {ahead' : List Token} :
    Reads ahead scope tokens ahead' rest ↔ tokens = ahead' ∧ tokens = rest :=
  ⟨fun ⟨hresult, hrest⟩ ↦ ⟨Except.ok.inj hresult, hrest⟩,
    fun ⟨hvalue, hrest⟩ ↦ ⟨congrArg _ hvalue, hrest⟩⟩

@[simp] theorem reads_next?_iff {token? : Option Token} :
    Reads next? scope tokens token? rest ↔ tokens.head? = token? ∧ tokens.tail = rest :=
  ⟨fun ⟨hresult, hrest⟩ ↦ ⟨Except.ok.inj hresult, hrest⟩,
    fun ⟨hvalue, hrest⟩ ↦ ⟨congrArg _ hvalue, hrest⟩⟩

@[simp] theorem reads_skip_iff {u : Unit} : Reads skip scope tokens u rest ↔ tokens.tail = rest :=
  ⟨fun ⟨_, hrest⟩ ↦ hrest, fun hrest ↦ ⟨rfl, hrest⟩⟩

@[simp] theorem reads_sees_iff {text : String} {seen : Bool} :
    Reads (sees text) scope tokens seen rest ↔ stands [text] tokens = seen ∧ tokens = rest :=
  ⟨fun ⟨hresult, hrest⟩ ↦ ⟨Except.ok.inj hresult, hrest⟩,
    fun ⟨hvalue, hrest⟩ ↦ ⟨congrArg _ hvalue, hrest⟩⟩

/-! A reader whose reading is known is run on the spot, as is one that cannot fail. -/

theorem Reads.bind_iff {a : α} {b : β} {mid : List Token} (h : Reads read scope tokens a mid) :
    Reads (read >>= next) scope tokens b rest ↔ Reads (next a) scope mid b rest := by
  rw [reads_bind_iff]
  constructor
  · rintro ⟨a', mid', hread, hnext⟩
    obtain ⟨rfl, rfl⟩ := h.value_unique hread
    exact hnext
  · exact fun hnext ↦ ⟨a, mid, h, hnext⟩

@[simp] theorem reads_pure_bind_iff {a : α} {b : β} :
    Reads (pure a >>= next) scope tokens b rest ↔ Reads (next a) scope tokens b rest :=
  Reads.pure.bind_iff

@[simp] theorem reads_ahead_bind_iff {next : List Token → Reader β} {b : β} :
    Reads (ahead >>= next) scope tokens b rest ↔ Reads (next tokens) scope tokens b rest :=
  (reads_ahead_iff.mpr ⟨rfl, rfl⟩).bind_iff

@[simp] theorem reads_next?_bind_iff {next : Option Token → Reader β} {b : β} :
    Reads (next? >>= next) scope tokens b rest ↔
      Reads (next tokens.head?) scope tokens.tail b rest :=
  (reads_next?_iff.mpr ⟨rfl, rfl⟩).bind_iff

@[simp] theorem reads_skip_bind_iff {next : Unit → Reader β} {b : β} :
    Reads (skip >>= next) scope tokens b rest ↔ Reads (next ()) scope tokens.tail b rest :=
  (reads_skip_iff.mpr rfl).bind_iff

@[simp] theorem reads_sees_bind_iff {text : String} {next : Bool → Reader β} {b : β} :
    Reads (sees text >>= next) scope tokens b rest ↔
      Reads (next (stands [text] tokens)) scope tokens b rest :=
  (reads_sees_iff.mpr ⟨rfl, rfl⟩).bind_iff

@[simp] theorem reads_tell_bind_iff {notice : Notice} {next : Unit → Reader β} {b : β} :
    Reads (tell notice >>= next) scope tokens b rest ↔ Reads (next ()) scope tokens b rest :=
  (reads_tell_iff.mpr rfl).bind_iff

@[simp] theorem stands_singleton_cons {text : String} {token : Token} :
    stands [text] (token :: tokens) = token.is text := by
  simp [stands]

theorem stands_singleton_eq_true_iff {text : String} :
    stands [text] tokens = true ↔ ∃ token back, tokens = token :: back ∧ token.is text = true := by
  cases tokens <;> simp [stands]

theorem reads_expect_iff {text context : String} {token : Token} :
    Reads (expect text context) scope tokens token rest ↔
      tokens = token :: rest ∧ token.is text = true := by
  constructor
  · rintro ⟨hresult, hrest⟩
    cases tokens with
    | nil => cases hresult
    | cons first tail =>
      rw [expect] at hresult hrest
      by_cases his : first.is text = true
      · rw [if_pos his] at hresult hrest
        obtain rfl := Except.ok.inj hresult
        exact ⟨by rw [← hrest], his⟩
      · rw [if_neg his] at hresult
        cases hresult
  · rintro ⟨rfl, his⟩
    constructor <;> rw [expect, if_pos his]

theorem reads_expectName_iff {context : String} {token : Token} :
    Reads (expectName context) scope tokens token rest ↔
      tokens = token :: rest ∧ token.isName = true := by
  constructor
  · rintro ⟨hresult, hrest⟩
    cases tokens with
    | nil => cases hresult
    | cons first tail =>
      rw [expectName] at hresult hrest
      by_cases hname : first.isName = true
      · rw [if_pos hname] at hresult hrest
        obtain rfl := Except.ok.inj hresult
        exact ⟨by rw [← hrest], hname⟩
      · rw [if_neg hname] at hresult
        cases hresult
  · rintro ⟨rfl, hname⟩
    constructor <;> rw [expectName, if_pos hname]

theorem reads_accept_iff {text : String} {accepted : Bool} :
    Reads (accept text) scope tokens accepted rest ↔
      accepted = true ∧ (∃ token, tokens = token :: rest ∧ token.is text = true) ∨
      accepted = false ∧ stands [text] tokens = false ∧ tokens = rest := by
  simp only [accept, accept?, reads_bind_iff, reads_sees_iff, reads_ite_iff, reads_next?_iff,
    reads_pure_iff]
  rcases tokens with _ | ⟨token, tail⟩
  · simp [stands]
    grind
  · by_cases his : token.is text = true
    · simp [stands, his]
      grind
    · simp [stands, his]
      grind

/-! The same for readers of single words and symbols. -/

theorem reads_accept_bind_iff_of_is {text : String} {token : Token} {next : Bool → Reader β} {b : β}
    (h : token.is text = true) : Reads (accept text >>= next) scope (token :: tokens) b rest ↔
      Reads (next true) scope tokens b rest :=
  (reads_accept_iff.mpr (.inl ⟨rfl, token, rfl, h⟩)).bind_iff

theorem reads_accept_bind_iff_of_not_stands {text : String} {next : Bool → Reader β} {b : β}
    (h : stands [text] tokens = false) : Reads (accept text >>= next) scope tokens b rest ↔
      Reads (next false) scope tokens b rest :=
  (reads_accept_iff.mpr (.inr ⟨rfl, h, rfl⟩)).bind_iff

theorem reads_expect_bind_iff_of_is {text context : String} {token : Token}
    {next : Token → Reader β} {b : β} (h : token.is text = true) :
    Reads (expect text context >>= next) scope (token :: tokens) b rest ↔
      Reads (next token) scope tokens b rest :=
  (reads_expect_iff.mpr ⟨rfl, h⟩).bind_iff

@[simp] theorem reads_group_iff {bracket : Bracket} {inner : List Token} :
    Reads (group bracket) scope tokens inner rest ↔
      bracket.close tokens.tail = .closed inner rest := by
  constructor
  · rintro ⟨hresult, hrest⟩
    rw [group] at hresult hrest
    rcases h : bracket.close tokens.tail with ⟨inner', rest'⟩ | _ | _
    · simp only [h, Except.ok.injEq] at hresult hrest
      rw [hresult, hrest]
    · simp [h, fail] at hresult
    · simp [h, fail] at hresult
  · intro h
    constructor <;> simp only [group, h]

section Repetition

variable {turn : Nat → Reader (Turn α)} {number : Nat} {items : List α}

theorem Reads.repeatFrom_stop (h : Reads (turn number) scope tokens .stop rest) :
    Reads (repeatFrom turn number) scope tokens [] rest :=
  ⟨(repeatFrom_of_stop h.result_eq).1, (repeatFrom_of_stop h.result_eq).2.trans h.rest_eq⟩

theorem Reads.repeatFrom_last {a : α} (h : Reads (turn number) scope tokens (.last a) rest) :
    Reads (repeatFrom turn number) scope tokens [a] rest :=
  ⟨(repeatFrom_of_last h.result_eq).1, (repeatFrom_of_last h.result_eq).2.trans h.rest_eq⟩

theorem Reads.repeatFrom_more {a : α} {mid : List Token}
    (h : Reads (turn number) scope tokens (.more a) mid) (hmid : mid.length < tokens.length)
    (hothers : Reads (repeatFrom turn (number + 1)) scope mid items rest) :
    Reads (repeatFrom turn number) scope tokens (a :: items) rest := by
  obtain ⟨hresult, rfl⟩ := h
  obtain ⟨hmore, hrest⟩ := repeatFrom_of_more hresult hmid
  exact ⟨by rw [hmore, hothers.result_eq]; rfl, hrest.trans hothers.rest_eq⟩

theorem Reads.repeatFrom_stuck {a : α} (h : Reads (turn number) scope tokens (.more a) rest)
    (hrest : ¬ rest.length < tokens.length) :
    Reads (repeatFrom turn number) scope tokens [a] rest := by
  obtain ⟨hresult, rfl⟩ := h
  exact ⟨(repeatFrom_of_stuck hresult hrest).1, (repeatFrom_of_stuck hresult hrest).2⟩

/-- A repetition gives what its first turn says. -/
theorem reads_repeatFrom_iff :
    Reads (repeatFrom turn number) scope tokens items rest ↔
      Reads (turn number) scope tokens .stop rest ∧ items = [] ∨
      (∃ a, Reads (turn number) scope tokens (.last a) rest ∧ items = [a]) ∨
      (∃ a mid others, Reads (turn number) scope tokens (.more a) mid ∧
        mid.length < tokens.length ∧ Reads (repeatFrom turn (number + 1)) scope mid others rest ∧
        items = a :: others) ∨
      ∃ a, Reads (turn number) scope tokens (.more a) rest ∧ ¬ rest.length < tokens.length ∧
        items = [a] := by
  constructor
  · intro h
    rcases hturn : (turn number scope tokens).result with fault | _ | a | a
    · have hresult := (repeatFrom_of_error hturn).1.symm.trans h.result_eq
      cases hresult
    · obtain ⟨rfl, rfl⟩ := h.value_unique (.repeatFrom_stop ⟨hturn, rfl⟩)
      exact .inl ⟨⟨hturn, rfl⟩, rfl⟩
    · obtain ⟨rfl, rfl⟩ := h.value_unique (.repeatFrom_last ⟨hturn, rfl⟩)
      exact .inr (.inl ⟨a, ⟨hturn, rfl⟩, rfl⟩)
    · by_cases hlt : (turn number scope tokens).rest.length < tokens.length
      · obtain ⟨hmore, hrest⟩ := repeatFrom_of_more hturn hlt
        obtain ⟨others, hothers, rfl⟩ := Except.map_eq_ok_iff.mp (hmore.symm.trans h.result_eq)
        exact .inr (.inr (.inl ⟨a, _, others, ⟨hturn, rfl⟩, hlt,
          ⟨hothers, hrest.symm.trans h.rest_eq⟩, rfl⟩))
      · obtain ⟨rfl, rfl⟩ := h.value_unique (.repeatFrom_stuck ⟨hturn, rfl⟩ hlt)
        exact .inr (.inr (.inr ⟨a, ⟨hturn, rfl⟩, hlt, rfl⟩))
  · rintro (⟨h, rfl⟩ | ⟨a, h, rfl⟩ | ⟨a, mid, others, h, hlt, hothers, rfl⟩ | ⟨a, h, hlt, rfl⟩)
    · exact h.repeatFrom_stop
    · exact h.repeatFrom_last
    · exact h.repeatFrom_more hlt hothers
    · exact h.repeatFrom_stuck hlt

/-- What is read in a repetition is read in its first turn and, if there are others, in these. -/
@[elab_as_elim]
theorem Reads.repeatFrom_induction
    {motive : ∀ (tokens : List Token) (number : Nat) (items : List α),
      Reads (repeatFrom turn number) scope tokens items rest → Prop}
    (stop : ∀ {tokens number} (hturn : Reads (turn number) scope tokens .stop rest),
      motive tokens number [] hturn.repeatFrom_stop)
    (last : ∀ {tokens number a} (hturn : Reads (turn number) scope tokens (.last a) rest),
      motive tokens number [a] hturn.repeatFrom_last)
    (more : ∀ {tokens number a mid others} (hturn : Reads (turn number) scope tokens (.more a) mid)
      (hlt : mid.length < tokens.length)
      (hothers : Reads (repeatFrom turn (number + 1)) scope mid others rest),
      motive mid (number + 1) others hothers →
        motive tokens number (a :: others) (hturn.repeatFrom_more hlt hothers))
    (stuck : ∀ {tokens number a} (hturn : Reads (turn number) scope tokens (.more a) rest)
      (hstuck : ¬ rest.length < tokens.length),
      motive tokens number [a] (hturn.repeatFrom_stuck hstuck))
    (h : Reads (repeatFrom turn number) scope tokens items rest) :
    motive tokens number items h := by
  induction hlength : tokens.length using Nat.strongRecOn generalizing tokens items number with
  | ind length ih =>
    rcases reads_repeatFrom_iff.mp h with ⟨hturn, rfl⟩ | ⟨a, hturn, rfl⟩ |
      ⟨a, mid, others, hturn, hlt, hothers, rfl⟩ | ⟨a, hturn, hstuck, rfl⟩
    · exact stop hturn
    · exact last hturn
    · exact more hturn hlt hothers (ih _ (hlength ▸ hlt) hothers rfl)
    · exact stuck hturn hstuck

/-- What a repetition reads after a first turn that is known. -/
theorem Reads.of_repeatFrom_more {a : α} {mid : List Token}
    (h : Reads (turn number) scope tokens (.more a) mid) (hmid : mid.length < tokens.length)
    (hread : Reads (repeatFrom turn number) scope tokens items rest) :
    ∃ others, items = a :: others ∧ Reads (repeatFrom turn (number + 1)) scope mid others rest := by
  rcases reads_repeatFrom_iff.mp hread with
    ⟨hturn, -⟩ | ⟨_, hturn, -⟩ | ⟨_, _, others, hturn, -, hothers, rfl⟩ | ⟨_, hturn, hstuck, -⟩
  · cases (h.value_unique hturn).1
  · cases (h.value_unique hturn).1
  · obtain ⟨⟨⟩, rfl⟩ := h.value_unique hturn
    exact ⟨others, rfl, hothers⟩
  · obtain ⟨-, rfl⟩ := h.value_unique hturn
    exact absurd hmid hstuck

/-- Tokens in parts are read part by part, if each can be read in front of what follows it. -/
theorem Reads.repeated_flatten {turn : Reader (Turn α)} {stops : List Token → Prop}
    {parts : List (List Token)}
    (hparts : List.Forall₂ (fun a part ↦ part ≠ [] ∧ (∀ back, stops (part ++ back)) ∧
      ∀ back, stops back → Reads turn scope (part ++ back) (.more a) back) items parts)
    (hrest : stops rest) (hstop : Reads turn scope rest .stop rest) :
    Reads (repeated turn) scope (parts.flatten ++ rest) items rest := by
  have hfrom (number : Nat) :
      Reads (repeatFrom (fun _ ↦ turn) number) scope (parts.flatten ++ rest) items rest := by
    induction hparts generalizing number with
    | nil => exact hstop.repeatFrom_stop
    | @cons a part items parts hpart hparts ih =>
      obtain ⟨hne, -, hread⟩ := hpart
      have hback : stops (parts.flatten ++ rest) := by
        cases hparts with
        | nil => exact hrest
        | cons hnext =>
          rw [List.flatten_cons, List.append_assoc]
          exact hnext.2.1 _
      have hlength : 0 < part.length := List.length_pos_iff.mpr hne
      rw [List.flatten_cons, List.append_assoc]
      refine (hread _ hback).repeatFrom_more ?_ (ih (number + 1))
      simp only [List.length_append]
      omega
  exact hfrom 0

end Repetition

end TestDouble.Reader
