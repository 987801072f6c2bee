import Mathlib.Data.List.Forall2
import TestDouble.Protocol.Excerpt
import TestDouble.Token.Bracket

/-!
# Parentheses counted from both ends

The parentheses after an attribute are found twice: from behind, by counting parentheses only, when
a declaration is located, and from the front, by following all brackets, when it is read. Both
searches look at how far the parentheses have risen since they began, and so a group that both find
is one and the same.
-/

namespace TestDouble

/-- How many more parentheses open than close. -/
def rise (tokens : List Token) : Int :=
  tokens.countP (·.is "(") - tokens.countP (·.is ")")

@[simp]
theorem rise_append (front back : List Token) : rise (front ++ back) = rise front + rise back := by
  simp only [rise, List.countP_append]
  omega

theorem rise_cons (token : Token) (tokens : List Token) :
    rise (token :: tokens) = rise [token] + rise tokens := rise_append [token] tokens

@[simp] theorem rise_reverse (tokens : List Token) : rise tokens.reverse = rise tokens := by
  rw [rise, List.countP_reverse, List.countP_reverse, rise]

/-- A token is one word or symbol at most. -/
theorem is_eq_false_of_is {token : Token} {text other : String} (h : token.is text = true)
    (hne : text ≠ other) : token.is other = false := by
  rw [Token.is, Bool.and_eq_true, decide_eq_true_eq, decide_eq_true_eq] at h
  simp [Token.is, h.2, hne]

private theorem rise_opener {token : Token} (h : token.is "(" = true) : rise [token] = 1 := by
  have hclose : token.is ")" = false := is_eq_false_of_is h (by decide)
  simp [rise, h, hclose]

private theorem rise_closer {token : Token} (h : token.is ")" = true) : rise [token] = -1 := by
  have hopen : token.is "(" = false := is_eq_false_of_is h (by decide)
  simp [rise, h, hopen]

theorem rise_other {token : Token} (hopen : ¬ token.is "(" = true)
    (hclose : ¬ token.is ")" = true) :
    rise [token] = 0 := by
  simp [rise, hopen, hclose]

/-- Tokens in which the parentheses rise to `depth` at the end and never above it. -/
structure RisesTo (depth : Int) (tokens : List Token) : Prop where
  rise_eq : rise tokens = depth
  rise_le : ∀ front, front <+: tokens → rise front ≤ depth

/-- Tokens in which the parentheses fall by `depth` at the end and never below that. -/
structure FallsBy (depth : Int) (tokens : List Token) : Prop where
  rise_eq : rise tokens = -depth
  le_rise : ∀ front, front <+: tokens → -depth ≤ rise front

theorem forall_prefix_cons {P : List Token → Prop} {token : Token} {tokens : List Token}
    (hnil : P []) (hcons : ∀ front, front <+: tokens → P (token :: front)) :
    ∀ front, front <+: token :: tokens → P front := by
  intro front hfront
  cases front with
  | nil => exact hnil
  | cons first front =>
    obtain ⟨rfl, htail⟩ := List.cons_prefix_cons.mp hfront
    exact hcons front htail

theorem RisesTo.cons {depth : Int} {token : Token} {tokens : List Token}
    (h : RisesTo (depth - rise [token]) tokens) (hdepth : 0 ≤ depth) :
    RisesTo depth (token :: tokens) := by
  refine ⟨?_, forall_prefix_cons hdepth fun front hfront ↦ ?_⟩
  · rw [rise_cons, h.rise_eq]
    omega
  · have := h.rise_le front hfront
    rw [rise_cons]
    omega

theorem FallsBy.cons {depth : Int} {token : Token} {tokens : List Token}
    (h : FallsBy (depth + rise [token]) tokens) (hdepth : 0 ≤ depth) :
    FallsBy depth (token :: tokens) := by
  refine ⟨?_, forall_prefix_cons (by simpa [rise] using hdepth) fun front hfront ↦ ?_⟩
  · rw [rise_cons, h.rise_eq]
    omega
  · have := h.le_rise front hfront
    rw [rise_cons]
    omega

/-- Walking back, the parentheses never rise above the group before its opener. -/
theorem openerExtent_eq_some {depth n : Nat} {earlier : List Token} {height : Int}
    (hheight : 0 ≤ height) (hdepth : (depth : Int) = height + 1)
    (h : Excerpt.openerExtent depth earlier = some n) :
    ∃ inner opener before, earlier = inner ++ opener :: before ∧ n = inner.length + 1 ∧
      opener.is "(" = true ∧ RisesTo height inner := by
  fun_induction Excerpt.openerExtent depth earlier generalizing n height with
  | case1 => simp at h
  | case2 depth token earlier hclose =>
    rename_i ih
    have hrise := rise_closer hclose
    obtain ⟨k, hk, rfl⟩ := Option.map_eq_some_iff.mp h
    obtain ⟨inner, opener, before, rfl, rfl, hopener, hinner⟩ :=
      @ih k (height - rise [token]) (by omega) (by omega) hk
    exact ⟨token :: inner, opener, before, rfl, rfl, hopener, hinner.cons hheight⟩
  | case3 depth token earlier hclose hopen hlast =>
    obtain rfl := Option.some.inj h
    obtain rfl : height = 0 := by omega
    exact ⟨[], token, earlier, rfl, rfl, hopen, rfl, by simp [rise]⟩
  | case4 depth token earlier hclose hopen hlast =>
    rename_i ih
    have hrise := rise_opener hopen
    obtain ⟨k, hk, rfl⟩ := Option.map_eq_some_iff.mp h
    obtain ⟨inner, opener, before, rfl, rfl, hopener, hinner⟩ :=
      @ih k (height - rise [token]) (by omega) (by omega) hk
    exact ⟨token :: inner, opener, before, rfl, rfl, hopener, hinner.cons hheight⟩
  | case5 depth token earlier hclose hopen =>
    rename_i ih
    have hrise := rise_other hopen hclose
    obtain ⟨k, hk, rfl⟩ := Option.map_eq_some_iff.mp h
    obtain ⟨inner, opener, before, rfl, rfl, hopener, hinner⟩ :=
      @ih k (height - rise [token]) (by omega) (by omega) hk
    exact ⟨token :: inner, opener, before, rfl, rfl, hopener, hinner.cons hheight⟩

/-! ## From the front -/

namespace Bracket

private theorem role_opener {token : Token}
    (h : token.is "(" = true) (hkind : token.kind ≠ .number) :
    role .round token = .opens .round := by
  rw [Token.is, Bool.and_eq_true, decide_eq_true_eq, decide_eq_true_eq] at h
  rw [role, if_neg (by simp [h.1, hkind]), h.2]
  rfl

private theorem role_closer {token : Token} (h : token.is ")" = true) (hkind :
    token.kind ≠ .number) : role .round token = .closes .round := by
  rw [Token.is, Bool.and_eq_true, decide_eq_true_eq, decide_eq_true_eq] at h
  rw [role, if_neg (by simp [h.1, hkind]), h.2]
  rfl

theorem is_of_role_opens {outermost bracket : Bracket} {token : Token}
    (h : role outermost token = .opens bracket) : token.is bracket.opener = true := by
  rw [role] at h
  split_ifs at h with hkind
  rcases hopener : (ofOpener? token.text).filter (·.nestsIn outermost) with _ | found
  · rw [hopener] at h
    split at h <;> simp_all
  · simp only [hopener, Role.opens.injEq] at h
    obtain ⟨hfound, -⟩ := Option.filter_eq_some_iff.mp hopener
    have htext := List.find?_some hfound
    simp_all [Token.is]

theorem is_of_role_closes {outermost bracket : Bracket} {token : Token}
    (h : role outermost token = .closes bracket) : token.is bracket.closer = true := by
  rw [role] at h
  split_ifs at h with hkind
  rcases hcloser : (ofCloser? token.text).filter (·.nestsIn outermost) with _ | found
  · rw [hcloser] at h
    split at h <;> simp_all
  · rw [hcloser] at h
    split at h
    · simp at h
    · obtain ⟨hfound, -⟩ := Option.filter_eq_some_iff.mp hcloser
      have htext := List.find?_some hfound
      simp_all [Token.is]
    · simp at h

theorem opener_injective {bracket other : Bracket} (h : bracket.opener = other.opener) :
    bracket = other := by
  revert h
  cases bracket <;> cases other <;> decide

theorem closer_injective {bracket other : Bracket} (h : bracket.closer = other.closer) :
    bracket = other := by
  revert h
  cases bracket <;> cases other <;> decide

theorem opener_ne_closer (bracket other : Bracket) : bracket.opener ≠ other.closer := by
  cases bracket <;> cases other <;> decide

/-- How many round brackets are open. -/
def roundDepth (brackets : List Bracket) : Nat :=
  brackets.count .round

private theorem rise_of_neutral {token : Token} (h : role .round token = .neutral)
    (hnumber : token.kind = .number → rise [token] = 0) : rise [token] = 0 := by
  by_cases hkind : token.kind = .number
  · exact hnumber hkind
  · refine rise_other (fun hopen ↦ ?_) fun hclose ↦ ?_
    · simp [role_opener hopen hkind] at h
    · simp [role_closer hclose hkind] at h

private theorem rise_of_opens {bracket : Bracket} {token : Token}
    (h : role .round token = .opens bracket) (enclosing : List Bracket) :
    (roundDepth (bracket :: enclosing) : Int) = roundDepth enclosing + rise [token] := by
  have his := is_of_role_opens h
  rw [roundDepth, roundDepth, List.count_cons]
  by_cases hround : bracket = .round
  · subst hround
    rw [rise_opener his]
    simp
  · have hopen : token.is "(" = false :=
      is_eq_false_of_is his fun heq ↦ hround (@opener_injective bracket .round heq)
    have hclose : token.is ")" = false := is_eq_false_of_is his (opener_ne_closer bracket .round)
    rw [rise_other (by simp [hopen]) (by simp [hclose])]
    simp [hround]

private theorem rise_of_closes {bracket : Bracket} {token : Token}
    (h : role .round token = .closes bracket) (enclosing : List Bracket) :
    (roundDepth enclosing : Int) = roundDepth (bracket :: enclosing) + rise [token] := by
  have his := is_of_role_closes h
  rw [roundDepth, roundDepth, List.count_cons]
  by_cases hround : bracket = .round
  · subst hround
    rw [rise_closer his, if_pos (beq_self_eq_true _)]
    omega
  · have hopen : token.is "(" = false :=
      is_eq_false_of_is his (opener_ne_closer .round bracket).symm
    have hclose : token.is ")" = false :=
      is_eq_false_of_is his fun heq ↦ hround (@closer_injective bracket .round heq)
    rw [rise_other (by simp [hopen]) (by simp [hclose])]
    simp [hround]

@[simp]
theorem Closing.cons_eq_closed_iff {token : Token} {closing : Closing} {inner rest : List Token} :
    closing.cons token = .closed inner rest ↔
      ∃ inner', closing = .closed inner' rest ∧ inner = token :: inner' := by
  cases closing with
  | closed inner' rest' => grind [Closing.cons]
  | mismatched | endless => simp [Closing.cons]

/-- The tokens of a group up to its closer, where `innermost` and, around it, `enclosing` are open
in front of them. -/
inductive UpTo (outermost : Bracket) : Bracket → List Bracket → List Token → Token → Prop
  | last {innermost : Bracket} {closer : Token} : role outermost closer = .closes innermost →
      UpTo outermost innermost [] [] closer
  | neutral {innermost : Bracket} {enclosing : List Bracket} {token closer : Token}
      {inner : List Token} : role outermost token = .neutral →
      UpTo outermost innermost enclosing inner closer →
      UpTo outermost innermost enclosing (token :: inner) closer
  | opens {bracket innermost : Bracket} {enclosing : List Bracket} {token closer : Token}
      {inner : List Token} : role outermost token = .opens bracket →
      UpTo outermost bracket (innermost :: enclosing) inner closer →
      UpTo outermost innermost enclosing (token :: inner) closer
  | closes {innermost next : Bracket} {outer : List Bracket} {token closer : Token}
      {inner : List Token} : role outermost token = .closes innermost →
      UpTo outermost next outer inner closer →
      UpTo outermost innermost (next :: outer) (token :: inner) closer

theorem UpTo.closeFrom_append {outermost innermost : Bracket} {enclosing : List Bracket}
    {inner : List Token} {closer : Token} (h : UpTo outermost innermost enclosing inner closer)
    (rest : List Token) :
    closeFrom outermost innermost enclosing (inner ++ closer :: rest) = .closed inner rest := by
  induction h with
  | last hrole =>
    rw [List.nil_append, closeFrom.eq_def]
    simp [hrole]
  | neutral hrole _ ih | opens hrole _ ih | closes hrole _ ih =>
    rw [List.cons_append, closeFrom.eq_def]
    simp [hrole, ih]

/-- A group is what is in front of its closer. -/
theorem closeFrom_eq_closed_iff {outermost innermost : Bracket} {enclosing : List Bracket}
    {tokens inner rest : List Token} :
    closeFrom outermost innermost enclosing tokens = .closed inner rest ↔
      ∃ closer, tokens = inner ++ closer :: rest ∧
        UpTo outermost innermost enclosing inner closer := by
  refine ⟨fun h ↦ ?_, ?_⟩
  · induction tokens generalizing innermost enclosing inner with
    | nil => simp [closeFrom] at h
    | cons token tokens ih =>
      rw [closeFrom.eq_def] at h
      rcases hrole : role outermost token with _ | bracket | bracket
      · simp only [hrole, Closing.cons_eq_closed_iff] at h
        obtain ⟨inner, hclosed, rfl⟩ := h
        obtain ⟨closer, rfl, hinner⟩ := ih hclosed
        exact ⟨closer, rfl, .neutral hrole hinner⟩
      · simp only [hrole, Closing.cons_eq_closed_iff] at h
        obtain ⟨inner, hclosed, rfl⟩ := h
        obtain ⟨closer, rfl, hinner⟩ := ih hclosed
        exact ⟨closer, rfl, .opens hrole hinner⟩
      · simp only [hrole] at h
        split_ifs at h with hne
        obtain rfl : bracket = innermost := by simpa using hne
        cases enclosing with
        | nil =>
          obtain ⟨rfl, rfl⟩ := Closing.closed.inj h
          exact ⟨token, rfl, .last hrole⟩
        | cons next outer =>
          obtain ⟨inner, hclosed, rfl⟩ := Closing.cons_eq_closed_iff.mp h
          obtain ⟨closer, rfl, hinner⟩ := ih hclosed
          exact ⟨closer, rfl, .closes hrole hinner⟩
  · rintro ⟨closer, rfl, h⟩
    exact h.closeFrom_append rest

/-- What follows the closer of a group is of no influence on the group. -/
theorem exists_closer_of_closeFrom {outermost innermost : Bracket} {enclosing : List Bracket}
    {tokens inner rest : List Token}
    (h : closeFrom outermost innermost enclosing tokens = .closed inner rest) :
    ∃ closer, tokens = inner ++ closer :: rest ∧ ∀ others,
      closeFrom outermost innermost enclosing (inner ++ closer :: others) =
        .closed inner others := by
  obtain ⟨closer, htokens, hinner⟩ := closeFrom_eq_closed_iff.mp h
  exact ⟨closer, htokens, hinner.closeFrom_append⟩

/-- Brackets the outermost of which is round. -/
theorem roundDepth_pos {brackets : List Bracket} (h : brackets.getLast? = some .round) :
    (1 : Int) ≤ roundDepth brackets := by
  have := List.count_pos_iff.mpr (List.mem_of_getLast? h)
  rw [roundDepth]
  omega

/-- Going forward, the parentheses never fall below the group before its closer. -/
theorem UpTo.fallsBy {innermost : Bracket} {enclosing : List Bracket} {inner : List Token}
    {closer : Token} (h : UpTo .round innermost enclosing inner closer)
    (hbottom : (innermost :: enclosing).getLast? = some .round)
    (hnumber : ∀ token ∈ inner, token.kind = .number → rise [token] = 0) :
    closer.is ")" = true ∧ FallsBy (roundDepth (innermost :: enclosing) - 1) inner := by
  induction h with
  | last hrole =>
    obtain rfl := Option.some.inj hbottom
    exact ⟨is_of_role_closes hrole, rfl, by simp [rise, roundDepth]⟩
  | neutral hrole _ ih =>
    obtain ⟨hfirst, hnumber⟩ := List.forall_mem_cons.mp hnumber
    obtain ⟨hcloser, hinner⟩ := ih hbottom hnumber
    have hdepth := roundDepth_pos hbottom
    refine ⟨hcloser, .cons ?_ (by omega)⟩
    rwa [rise_of_neutral hrole hfirst, Int.add_zero]
  | opens hrole _ ih =>
    obtain ⟨-, hnumber⟩ := List.forall_mem_cons.mp hnumber
    obtain ⟨hcloser, hinner⟩ := ih hbottom hnumber
    have hdepth := roundDepth_pos hbottom
    refine ⟨hcloser, .cons ?_ (by omega)⟩
    rwa [rise_of_opens hrole, Int.sub_eq_add_neg, Int.add_right_comm,
      ← Int.sub_eq_add_neg] at hinner
  | closes hrole _ ih =>
    obtain ⟨-, hnumber⟩ := List.forall_mem_cons.mp hnumber
    obtain ⟨hcloser, hinner⟩ := ih hbottom hnumber
    have hdepth := roundDepth_pos hbottom
    refine ⟨hcloser, .cons ?_ (by omega)⟩
    rwa [rise_of_closes hrole, Int.sub_eq_add_neg, Int.add_right_comm,
      ← Int.sub_eq_add_neg] at hinner

/-- Both searches for a group in parentheses find the same. -/
theorem close_round_eq {inner inner' more rest : List Token} {closer : Token}
    (hinner : RisesTo 0 inner.reverse) (hcloser : closer.is ")" = true)
    (hnumber : ∀ token ∈ inner ++ closer :: more, token.kind = .number → rise [token] = 0)
    (h : Bracket.round.close (inner ++ closer :: more) = .closed inner' rest) :
    inner' = inner ∧ rest = more := by
  obtain ⟨closer', htokens, hinner'⟩ := closeFrom_eq_closed_iff.mp h
  obtain ⟨hcloser', hrise, hfalls⟩ := hinner'.fallsBy rfl fun token htoken ↦
    hnumber token (htokens ▸ List.mem_append_left _ htoken)
  -- If one of the two ended inside the other, the parentheses would fall or rise too far there.
  rcases List.append_eq_append_iff.mp htokens with ⟨back, rfl, hback⟩ | ⟨back, rfl, hback⟩
  · cases back with
    | nil =>
      obtain ⟨-, rfl⟩ := List.cons.inj hback
      exact ⟨List.append_nil inner, rfl⟩
    | cons first back =>
      obtain ⟨rfl, -⟩ := List.cons.inj hback
      have hfall := hfalls (inner ++ [closer]) ⟨back, by simp⟩
      have hlevel := hinner.rise_eq
      rw [rise_append, rise_closer hcloser] at hfall
      rw [rise_reverse] at hlevel
      simp [roundDepth] at hfall
      omega
  · cases back with
    | nil =>
      obtain ⟨-, rfl⟩ := List.cons.inj hback
      exact ⟨(List.append_nil inner').symm, rfl⟩
    | cons first back =>
      obtain ⟨rfl, -⟩ := List.cons.inj hback
      have hback := hinner.rise_le back.reverse ⟨(inner' ++ [closer']).reverse, by simp⟩
      have hlevel := hinner.rise_eq
      rw [rise_reverse] at hback hlevel
      rw [rise_append, rise_cons, rise_closer hcloser'] at hlevel
      simp [roundDepth] at hrise
      omega

end Bracket

end TestDouble
