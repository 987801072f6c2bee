import TestDouble.Proofs.Token.Round
import TestDouble.Proofs.Token.Tail

/-!
# Nesting

Tokens are nested if every closer closes the innermost open bracket and no bracket is left open. A
group that is taken whole is nested. Where tokens are passed over one by one, closers that close
nothing are passed over as well, and then the tokens are nested but for these. That is described by
a relation between the brackets that are open before some tokens and those that are open behind
them, so that tokens in a row are put together as their brackets fit.

Angle brackets are operators here, as they are in every group that does not begin with one.
-/

namespace TestDouble

open TestDouble.Bracket

/-! ## Open brackets -/

/-- The brackets that are open behind the tokens, innermost first, if every closer closes one. -/
def openBehind : List Bracket → List Token → Option (List Bracket)
  | opened, [] => some opened
  | opened, token :: tokens =>
    match role .round token, opened with
    | .neutral, opened => openBehind opened tokens
    | .opens bracket, opened => openBehind (bracket :: opened) tokens
    | .closes bracket, innermost :: opened =>
      if bracket = innermost then openBehind opened tokens else none
    | .closes _, [] => none

/-- Every closer closes the innermost open bracket, and no bracket is left open. -/
def Nested (tokens : List Token) : Prop :=
  openBehind [] tokens = some []

instance (tokens : List Token) : Decidable (Nested tokens) :=
  inferInstanceAs (Decidable (_ = _))

/-- The tokens lead from the brackets that are open before them to those that are open behind them.
Closers of brackets that are `loose` may close nothing. -/
inductive Nests (loose : Bracket → Prop) : List Bracket → List Token → List Bracket → Prop
  | nil {opened : List Bracket} : Nests loose opened [] opened
  | neutral {token : Token} {tokens : List Token} {opened opened' : List Bracket} :
      role .round token = .neutral → Nests loose opened tokens opened' →
      Nests loose opened (token :: tokens) opened'
  | opens {token : Token} {tokens : List Token} {bracket : Bracket}
      {opened opened' : List Bracket} :
      role .round token = .opens bracket → Nests loose (bracket :: opened) tokens opened' →
      Nests loose opened (token :: tokens) opened'
  | closes {token : Token} {tokens : List Token} {bracket : Bracket}
      {opened opened' : List Bracket} :
      role .round token = .closes bracket → Nests loose opened tokens opened' →
      Nests loose (bracket :: opened) (token :: tokens) opened'
  | surplus {token : Token} {tokens : List Token} {bracket : Bracket}
      {opened opened' : List Bracket} :
      role .round token = .closes bracket → loose bracket → Nests loose opened tokens opened' →
      Nests loose opened (token :: tokens) opened'

section

variable {loose loose' : Bracket → Prop} {opened opened' mid : List Bracket}
  {tokens front back : List Token} {token : Token} {bracket : Bracket}

namespace Nests

theorem append (hfront : Nests loose opened front mid) (hback : Nests loose mid back opened') :
    Nests loose opened (front ++ back) opened' := by
  induction hfront with
  | nil => exact hback
  | neutral hrole _ ih => exact .neutral hrole (ih hback)
  | opens hrole _ ih => exact .opens hrole (ih hback)
  | closes hrole _ ih => exact .closes hrole (ih hback)
  | surplus hrole hloose _ ih => exact .surplus hrole hloose (ih hback)

theorem exists_of_append (h : Nests loose opened (front ++ back) opened') :
    ∃ mid, Nests loose opened front mid ∧ Nests loose mid back opened' := by
  induction front generalizing opened with
  | nil => exact ⟨opened, .nil, h⟩
  | cons token front ih =>
    cases h with
    | neutral hrole h => exact (ih h).imp fun _ ⟨hfront, hback⟩ ↦ ⟨.neutral hrole hfront, hback⟩
    | opens hrole h => exact (ih h).imp fun _ ⟨hfront, hback⟩ ↦ ⟨.opens hrole hfront, hback⟩
    | closes hrole h => exact (ih h).imp fun _ ⟨hfront, hback⟩ ↦ ⟨.closes hrole hfront, hback⟩
    | surplus hrole hloose h =>
      exact (ih h).imp fun _ ⟨hfront, hback⟩ ↦ ⟨.surplus hrole hloose hfront, hback⟩

theorem mono (h : Nests loose opened tokens opened')
    (himp : ∀ bracket, loose bracket → loose' bracket) : Nests loose' opened tokens opened' := by
  induction h with
  | nil => exact .nil
  | neutral hrole _ ih => exact .neutral hrole ih
  | opens hrole _ ih => exact .opens hrole ih
  | closes hrole _ ih => exact .closes hrole ih
  | surplus hrole hloose _ ih => exact .surplus hrole (himp _ hloose) ih

end Nests

/-- Where no closer may close nothing, there is one way to follow the brackets. -/
theorem nests_iff_openBehind :
    Nests (fun _ ↦ False) opened tokens opened' ↔ openBehind opened tokens = some opened' := by
  constructor
  · intro h
    induction h with
    | nil => rfl
    | neutral hrole _ ih => simpa [openBehind, hrole] using ih
    | opens hrole _ ih => simpa [openBehind, hrole] using ih
    | closes hrole _ ih => simpa [openBehind, hrole] using ih
    | surplus _ hloose => exact hloose.elim
  · intro h
    induction tokens generalizing opened with
    | nil =>
      obtain rfl := Option.some.inj h
      exact .nil
    | cons token tokens ih =>
      rw [openBehind.eq_def] at h
      rcases hrole : role .round token with _ | bracket | bracket
      · simp only [hrole] at h
        exact .neutral hrole (ih h)
      · simp only [hrole] at h
        exact .opens hrole (ih h)
      · rcases opened with _ | ⟨innermost, opened⟩
        · simp [hrole] at h
        · simp only [hrole, Option.ite_none_right_eq_some] at h
          obtain ⟨rfl, h⟩ := h
          exact .closes hrole (ih h)

/-! ## Surplus closers -/

/-- How many tokens open the bracket. -/
def Bracket.openers (bracket : Bracket) (tokens : List Token) : Nat :=
  tokens.countP (role .round · = .opens bracket)

/-- How many tokens close the bracket. -/
def Bracket.closers (bracket : Bracket) (tokens : List Token) : Nat :=
  tokens.countP (role .round · = .closes bracket)

private theorem openers_cons_of_role {role' : Role} (hrole : role .round token = role') :
    bracket.openers (token :: tokens) =
      bracket.openers tokens + if role' = .opens bracket then 1 else 0 := by
  simp [openers, List.countP_cons, hrole]

private theorem closers_cons_of_role {role' : Role} (hrole : role .round token = role') :
    bracket.closers (token :: tokens) =
      bracket.closers tokens + if role' = .closes bracket then 1 else 0 := by
  simp [closers, List.countP_cons, hrole]

namespace Nests

/-- There are as many closers as the openers account for, and those that close nothing. -/
theorem exists_surplus (h : Nests loose opened tokens opened') (bracket : Bracket) :
    ∃ surplus, bracket.openers tokens + opened.count bracket + surplus =
        bracket.closers tokens + opened'.count bracket ∧ (¬ loose bracket → surplus = 0) := by
  induction h with
  | nil => exact ⟨0, by simp [openers, closers], fun _ ↦ rfl⟩
  | neutral hrole _ ih =>
    rw [openers_cons_of_role hrole, closers_cons_of_role hrole]
    simpa using ih
  | @opens token tokens other opened opened' hrole _ ih =>
    obtain ⟨surplus, heq, hnone⟩ := ih
    refine ⟨surplus, ?_, hnone⟩
    rw [openers_cons_of_role hrole, closers_cons_of_role hrole]
    rw [List.count_cons] at heq
    simp only [Role.opens.injEq, reduceCtorEq, if_false, beq_iff_eq] at heq ⊢
    omega
  | @closes token tokens other opened opened' hrole _ ih =>
    obtain ⟨surplus, heq, hnone⟩ := ih
    refine ⟨surplus, ?_, hnone⟩
    rw [openers_cons_of_role hrole, closers_cons_of_role hrole, List.count_cons]
    simp only [Role.closes.injEq, reduceCtorEq, if_false, beq_iff_eq] at heq ⊢
    omega
  | @surplus token tokens other opened opened' hrole hloose _ ih =>
    obtain ⟨surplus, heq, hnone⟩ := ih
    rw [openers_cons_of_role hrole, closers_cons_of_role hrole]
    simp only [Role.closes.injEq, reduceCtorEq, if_false]
    by_cases hother : other = bracket
    · refine ⟨surplus + 1, ?_, fun hnot ↦ absurd (hother ▸ hloose) hnot⟩
      rw [if_pos hother]
      omega
    · refine ⟨surplus, ?_, hnone⟩
      rw [if_neg hother]
      omega

theorem openers_le (h : Nests loose opened tokens opened') (bracket : Bracket) :
    bracket.openers tokens + opened.count bracket ≤
      bracket.closers tokens + opened'.count bracket := by
  obtain ⟨surplus, heq, -⟩ := h.exists_surplus bracket
  omega

/-- Closers that have to close something are no more than the openers account for. -/
theorem closers_le (h : Nests loose opened tokens opened') (bracket : Bracket)
    (hloose : ¬ loose bracket) :
    bracket.closers tokens + opened'.count bracket ≤
      bracket.openers tokens + opened.count bracket := by
  obtain ⟨surplus, heq, hnone⟩ := h.exists_surplus bracket
  rw [hnone hloose] at heq
  omega

/-- Where the openers account for all closers of a bracket, each of them closes one. -/
theorem of_closers_le (h : Nests loose opened tokens opened') (bracket : Bracket)
    (hcount : bracket.closers tokens + opened'.count bracket ≤
      bracket.openers tokens + opened.count bracket) :
    Nests (fun other ↦ loose other ∧ other ≠ bracket) opened tokens opened' := by
  induction h with
  | nil => exact .nil
  | neutral hrole _ ih =>
    rw [openers_cons_of_role hrole, closers_cons_of_role hrole] at hcount
    exact .neutral hrole (ih (by simpa using hcount))
  | @opens token tokens other opened opened' hrole _ ih =>
    rw [openers_cons_of_role hrole, closers_cons_of_role hrole] at hcount
    refine .opens hrole (ih ?_)
    rw [List.count_cons]
    simp only [Role.opens.injEq, reduceCtorEq, if_false, beq_iff_eq] at hcount ⊢
    omega
  | @closes token tokens other opened opened' hrole _ ih =>
    rw [openers_cons_of_role hrole, closers_cons_of_role hrole, List.count_cons] at hcount
    refine .closes hrole (ih ?_)
    simp only [Role.closes.injEq, reduceCtorEq, if_false, beq_iff_eq] at hcount
    omega
  | @surplus token tokens other opened opened' hrole hloose hrest ih =>
    rw [openers_cons_of_role hrole, closers_cons_of_role hrole] at hcount
    simp only [Role.closes.injEq, reduceCtorEq, if_false] at hcount
    -- A closer that closes nothing would leave the others with too few openers.
    have hle := hrest.openers_le bracket
    have hne : other ≠ bracket := by
      rintro rfl
      rw [if_pos rfl] at hcount
      omega
    rw [if_neg hne] at hcount
    exact .surplus hrole ⟨hloose, hne⟩ (ih hcount)

end Nests

/-! ## Roles of tokens -/

namespace Bracket

theorem nestsIn_of_role {outermost : Bracket} :
    (role outermost token = .opens bracket → bracket.nestsIn outermost = true) ∧
      (role outermost token = .closes bracket → bracket.nestsIn outermost = true) := by
  constructor
  all_goals
    intro h
    rw [role] at h
    split_ifs at h
    split at h
  · next hopener =>
    obtain rfl := Role.opens.inj h
    exact (Option.filter_eq_some_iff.mp hopener).2
  · cases h
  · cases h
  · cases h
  · next hcloser =>
    obtain rfl := Role.closes.inj h
    exact (Option.filter_eq_some_iff.mp hcloser).2
  · cases h

/-- The texts of all brackets that nest in every group. -/
def texts : List String :=
  [round, square, curly].flatMap fun bracket ↦ [bracket.opener, bracket.closer]

private theorem mem_texts (hne : bracket ≠ .angle) :
    bracket.opener ∈ texts ∧ bracket.closer ∈ texts := by
  cases bracket <;> first | contradiction | decide

private theorem role_of_text (h : token.text ∉ texts) : role .round token = .neutral := by
  rcases hrole : role .round token with _ | bracket | bracket
  · rfl
  · have hne : bracket ≠ .angle := by simpa [nestsIn] using nestsIn_of_role.1 hrole
    have his := is_of_role_opens hrole
    rw [Token.is, Bool.and_eq_true, decide_eq_true_eq, decide_eq_true_eq] at his
    exact absurd (his.2 ▸ (mem_texts hne).1) h
  · have hne : bracket ≠ .angle := by simpa [nestsIn] using nestsIn_of_role.2 hrole
    have his := is_of_role_closes hrole
    rw [Token.is, Bool.and_eq_true, decide_eq_true_eq, decide_eq_true_eq] at his
    exact absurd (his.2 ▸ (mem_texts hne).2) h

theorem role_of_is {text : String} (h : token.is text = true) (htext : text ∉ texts) :
    role .round token = .neutral := by
  rw [Token.is, Bool.and_eq_true, decide_eq_true_eq, decide_eq_true_eq] at h
  exact role_of_text (h.2 ▸ htext)

theorem role_of_opener_text {outermost : Bracket}
    (hkind : ¬ (token.kind = .string ∨ token.kind = .number))
    (htext : token.text = bracket.opener) :
    role outermost token = if bracket.nestsIn outermost then .opens bracket else .neutral := by
  rw [role, if_neg hkind, htext]
  cases bracket <;> cases outermost <;> rfl

theorem role_of_closer_text {outermost : Bracket}
    (hkind : ¬ (token.kind = .string ∨ token.kind = .number))
    (htext : token.text = bracket.closer) :
    role outermost token = if bracket.nestsIn outermost then .closes bracket else .neutral := by
  rw [role, if_neg hkind, htext]
  cases bracket <;> cases outermost <;> rfl

section

variable (hspelled : Token.Spelled token.kind token.text.toList)
include hspelled

private theorem kind_of_text (h : token.text ∈ texts) : token.kind = .punctuation := by
  have hmarks : ∀ text ∈ texts, Token.Spelled .punctuation text.toList := by decide +kernel
  exact hspelled.kind_eq (hmarks _ h)

private theorem role_of_kind (hkind : token.kind ≠ .punctuation) : role .round token = .neutral :=
  role_of_text fun htext ↦ hkind (kind_of_text hspelled htext)

theorem role_of_opener (h : token.is bracket.opener = true) (hne : bracket ≠ .angle) :
    role .round token = .opens bracket := by
  rw [Token.is, Bool.and_eq_true, decide_eq_true_eq, decide_eq_true_eq] at h
  have hkind := kind_of_text hspelled (h.2 ▸ (mem_texts hne).1)
  rw [role_of_opener_text (by simp [hkind]) h.2, if_pos (by simp [nestsIn, hne])]

theorem role_of_closer (h : token.is bracket.closer = true) (hne : bracket ≠ .angle) :
    role .round token = .closes bracket := by
  rw [Token.is, Bool.and_eq_true, decide_eq_true_eq, decide_eq_true_eq] at h
  have hkind := kind_of_text hspelled (h.2 ▸ (mem_texts hne).2)
  rw [role_of_closer_text (by simp [hkind]) h.2, if_pos (by simp [nestsIn, hne])]

theorem role_opens_iff (hne : bracket ≠ .angle) :
    role .round token = .opens bracket ↔ token.is bracket.opener = true :=
  ⟨is_of_role_opens, fun h ↦ role_of_opener hspelled h hne⟩

theorem role_closes_iff (hne : bracket ≠ .angle) :
    role .round token = .closes bracket ↔ token.is bracket.closer = true :=
  ⟨is_of_role_closes, fun h ↦ role_of_closer hspelled h hne⟩

end

theorem kind_of_role {outermost : Bracket} (h : role outermost token ≠ .neutral) :
    ¬ (token.kind = .string ∨ token.kind = .number) := by
  intro hkind
  rw [role, if_pos hkind] at h
  exact h rfl

/-- In a group that begins with an angle bracket, other brackets nest as anywhere. -/
theorem role_of_role_opens {outermost : Bracket} (h : role outermost token = .opens bracket) :
    role .round token = if bracket = .angle then .neutral else .opens bracket := by
  have his := is_of_role_opens h
  have hrole : role outermost token ≠ .neutral := by simp [h]
  rw [Token.is, Bool.and_eq_true, decide_eq_true_eq, decide_eq_true_eq] at his
  rw [role_of_opener_text (kind_of_role hrole) his.2]
  cases bracket <;> rfl

private theorem role_of_role_closes {outermost : Bracket}
    (h : role outermost token = .closes bracket) :
    role .round token = if bracket = .angle then .neutral else .closes bracket := by
  have his := is_of_role_closes h
  have hrole : role outermost token ≠ .neutral := by simp [h]
  rw [Token.is, Bool.and_eq_true, decide_eq_true_eq, decide_eq_true_eq] at his
  rw [role_of_closer_text (kind_of_role hrole) his.2]
  cases bracket <;> rfl

private theorem role_of_role_neutral {outermost : Bracket} (h : role outermost token = .neutral) :
    role .round token = .neutral := by
  by_contra hrole
  have hkind := kind_of_role hrole
  have htexts : token.text ∈ texts := by
    by_contra htext
    exact hrole (role_of_text htext)
  have hmarks : ∀ outermost ∈ all, ∀ text ∈ texts,
      role outermost ⟨.punctuation, text, 0, false⟩ ≠ .neutral := by decide
  refine hmarks outermost (by cases outermost <;> decide) _ htexts ?_
  rw [role, if_neg hkind] at h
  rw [role, if_neg (by simp)]
  exact h

end Bracket

/-! ## Counting by text -/

theorem Bracket.openers_eq_countP (hne : bracket ≠ .angle)
    (hspelled : ∀ token ∈ tokens, Token.Spelled token.kind token.text.toList) :
    bracket.openers tokens = tokens.countP (·.is bracket.opener) :=
  List.countP_congr fun token htoken ↦ by
    rw [decide_eq_true_eq, role_opens_iff (hspelled token htoken) hne]

theorem Bracket.closers_eq_countP (hne : bracket ≠ .angle)
    (hspelled : ∀ token ∈ tokens, Token.Spelled token.kind token.text.toList) :
    bracket.closers tokens = tokens.countP (·.is bracket.closer) :=
  List.countP_congr fun token htoken ↦ by
    rw [decide_eq_true_eq, role_closes_iff (hspelled token htoken) hne]

theorem Bracket.closers_angle (tokens : List Token) : angle.closers tokens = 0 := by
  rw [closers, List.countP_eq_zero]
  intro token _ hrole
  have hnests := nestsIn_of_role.2 (of_decide_eq_true hrole)
  cases hnests

/-! ## Single tokens -/

namespace Nests

theorem of_is {text : String} (h : token.is text = true) (htext : text ∉ texts) :
    Nests loose opened [token] opened :=
  .neutral (role_of_is h htext) .nil

theorem of_text (h : token.text ∉ texts) : Nests loose opened [token] opened :=
  .neutral (role_of_text h) .nil

theorem of_kind (hspelled : Token.Spelled token.kind token.text.toList)
    (hkind : token.kind ≠ .punctuation) : Nests loose opened [token] opened :=
  .neutral (role_of_kind hspelled hkind) .nil

theorem of_isName (hspelled : Token.Spelled token.kind token.text.toList)
    (hname : token.isName = true) : Nests loose opened [token] opened := by
  refine of_kind hspelled fun hkind ↦ ?_
  simp [Token.isName, hkind] at hname

theorem of_opener (bracket : Bracket) (hspelled : Token.Spelled token.kind token.text.toList)
    (h : token.is bracket.opener = true) (hne : bracket ≠ .angle) :
    Nests loose opened [token] (bracket :: opened) :=
  .opens (role_of_opener hspelled h hne) .nil

theorem of_closer (bracket : Bracket) (hspelled : Token.Spelled token.kind token.text.toList)
    (h : token.is bracket.closer = true) (hne : bracket ≠ .angle) :
    Nests loose (bracket :: opened) [token] opened :=
  .closes (role_of_closer hspelled h hne) .nil

/-- A token that opens nothing may be passed over where closers like it may. -/
theorem of_not_opener (h : ∀ bracket : Bracket, token.is bracket.opener = true → bracket = .angle)
    (hcloser : ∀ bracket : Bracket, token.is bracket.closer = true → loose bracket) :
    Nests loose opened [token] opened := by
  rcases hrole : role .round token with _ | bracket | bracket
  · exact .neutral hrole .nil
  · have hangle := h bracket (is_of_role_opens hrole)
    have hnests := nestsIn_of_role.1 hrole
    rw [hangle] at hnests
    cases hnests
  · exact .surplus hrole (hcloser bracket (is_of_role_closes hrole)) .nil

end Nests

/-! ## Groups -/

section Group

variable {outermost bracket : Bracket} {enclosing outer : List Bracket}

/-- An opener opens its bracket, if it counts as one at all. -/
private theorem nests_of_role_opens (hrole : role outermost token = .opens bracket)
    (h : Nests loose ((bracket :: enclosing).filter (· ≠ .angle) ++ outer) tokens outer) :
    Nests loose (enclosing.filter (· ≠ .angle) ++ outer) (token :: tokens) outer := by
  have hround := role_of_role_opens hrole
  by_cases hangle : bracket = .angle
  · rw [if_pos hangle] at hround
    rw [List.filter_cons_of_neg (by simpa using hangle)] at h
    exact .neutral hround h
  · rw [if_neg hangle] at hround
    rw [List.filter_cons_of_pos (by simpa using hangle)] at h
    exact .opens hround h

/-- A closer takes its bracket off the open ones, if it counts as one at all. -/
private theorem nests_of_role_closes (hrole : role outermost token = .closes bracket)
    (h : Nests loose (enclosing.filter (· ≠ .angle) ++ outer) tokens outer) :
    Nests loose ((bracket :: enclosing).filter (· ≠ .angle) ++ outer) (token :: tokens) outer := by
  have hround := role_of_role_closes hrole
  by_cases hangle : bracket = .angle
  · rw [if_pos hangle] at hround
    rw [List.filter_cons_of_neg (by simpa using hangle)]
    exact .neutral hround h
  · rw [if_neg hangle] at hround
    rw [List.filter_cons_of_pos (by simpa using hangle)]
    exact .closes hround h

variable (loose outer) in
/-- Whatever is open around a group, what is taken of it closes it. -/
theorem Bracket.UpTo.nests {innermost : Bracket} {inner : List Token} {closer : Token}
    (h : UpTo outermost innermost enclosing inner closer) :
    Nests loose ((innermost :: enclosing).filter (· ≠ .angle) ++ outer) (inner ++ [closer])
      outer := by
  induction h with
  | last hrole => exact nests_of_role_closes hrole .nil
  | neutral hrole _ ih => exact .neutral (role_of_role_neutral hrole) ih
  | opens hrole _ ih => exact nests_of_role_opens hrole ih
  | closes hrole _ ih => exact nests_of_role_closes hrole ih

end Group

variable (loose) in
/-- A group is taken whole. -/
theorem nests_of_close {inner rest : List Token} {opener : Token}
    (h : bracket.close tokens = .closed inner rest)
    (hspelled : Token.Spelled opener.kind opener.text.toList)
    (hopener : opener.is bracket.opener = true) (opened : List Bracket) :
    ∃ closer, tokens = inner ++ closer :: rest ∧
      Nests loose opened (opener :: (inner ++ [closer])) opened := by
  obtain ⟨closer, htokens, hinner⟩ := closeFrom_eq_closed_iff.mp h
  have hnests := hinner.nests loose opened
  refine ⟨closer, htokens, ?_⟩
  by_cases hangle : bracket = .angle
  · subst hangle
    exact .neutral (role_of_is hopener (by decide)) hnests
  · rw [List.filter_cons_of_pos (by simpa using hangle)] at hnests
    exact .opens (role_of_opener hspelled hopener hangle) hnests

end

end TestDouble
