import TestDouble.Proofs.Reader.Basic
import TestDouble.Proofs.Token.Nesting

/-!
# Groups are recognised exactly

What a group is, is said by a grammar: tokens are paired if brackets enclose paired tokens only. A
group is followed from the front with a stack of open brackets instead, and ends at one of three
places: where the bracket it began with is closed, at a closer that is not the partner of the
innermost open bracket, or at the end of the tokens. The grammar says of each of these what stands
before it, so that a group is recognised where there is one, and where there is none it is known
how far the tokens went right.

In contrast to `Nested` the brackets here are those of a group with a given first bracket, so that
angle brackets count in the groups that begin with one.
-/

namespace TestDouble

namespace Bracket

variable {outermost bracket other innermost : Bracket} {opened enclosing : List Bracket}
  {token opener closer : Token} {tokens inner front back rest : List Token} {closing : Closing}

/-! ## Brackets among tokens -/

/-- The token is the given symbol of a bracket, in a group that `outermost` opens. Strings and
numbers are no brackets, and angle brackets are such in groups only that begin with one. -/
structure Marks (outermost bracket : Bracket) (symbol : String) (token : Token) : Prop where
  not_string : token.kind ≠ .string
  not_number : token.kind ≠ .number
  nests : bracket = .angle → outermost = .angle
  text_eq : token.text = symbol

def Opens (outermost bracket : Bracket) (token : Token) : Prop :=
  Marks outermost bracket bracket.opener token

def Closes (outermost bracket : Bracket) (token : Token) : Prop :=
  Marks outermost bracket bracket.closer token

/-- The token is no bracket. -/
def Plain (outermost : Bracket) (token : Token) : Prop :=
  ∀ bracket, ¬ Opens outermost bracket token ∧ ¬ Closes outermost bracket token

@[simp] theorem nestsIn_eq_true_iff :
    bracket.nestsIn outermost = true ↔ (bracket = .angle → outermost = .angle) := by
  simp [nestsIn, imp_iff_not_or]

private theorem marks_of_role {symbol : String} (hrole : role outermost token ≠ .neutral)
    (hnests : bracket.nestsIn outermost = true) (his : token.is symbol = true) :
    Marks outermost bracket symbol token := by
  obtain ⟨hstring, hnumber⟩ := not_or.mp (kind_of_role hrole)
  rw [Token.is, Bool.and_eq_true, decide_eq_true_eq, decide_eq_true_eq] at his
  exact ⟨hstring, hnumber, nestsIn_eq_true_iff.mp hnests, his.2⟩

theorem role_eq_opens_iff :
    role outermost token = .opens bracket ↔ Opens outermost bracket token := by
  constructor
  · intro hrole
    have hneutral : role outermost token ≠ .neutral := by simp [hrole]
    exact marks_of_role hneutral (nestsIn_of_role.1 hrole) (is_of_role_opens hrole)
  · rintro ⟨hstring, hnumber, hnests, htext⟩
    rw [role_of_opener_text (not_or.mpr ⟨hstring, hnumber⟩) htext,
      if_pos (nestsIn_eq_true_iff.mpr hnests)]

theorem role_eq_closes_iff :
    role outermost token = .closes bracket ↔ Closes outermost bracket token := by
  constructor
  · intro hrole
    have hneutral : role outermost token ≠ .neutral := by simp [hrole]
    exact marks_of_role hneutral (nestsIn_of_role.2 hrole) (is_of_role_closes hrole)
  · rintro ⟨hstring, hnumber, hnests, htext⟩
    rw [role_of_closer_text (not_or.mpr ⟨hstring, hnumber⟩) htext,
      if_pos (nestsIn_eq_true_iff.mpr hnests)]

theorem role_eq_neutral_iff : role outermost token = .neutral ↔ Plain outermost token := by
  simp only [Plain, ← role_eq_opens_iff, ← role_eq_closes_iff]
  rcases role outermost token with _ | bracket | bracket <;> simp

/-! ## The grammar -/

/-- Every bracket has its partner, and what stands between them is paired as well. -/
inductive Paired (outermost : Bracket) : List Token → Prop
  | nil : Paired outermost []
  | plain {token : Token} {tokens : List Token} :
      Plain outermost token → Paired outermost tokens → Paired outermost (token :: tokens)
  | group {bracket : Bracket} {opener closer : Token} {inner tokens : List Token} :
      Opens outermost bracket opener → Paired outermost inner → Closes outermost bracket closer →
      Paired outermost tokens → Paired outermost (opener :: (inner ++ closer :: tokens))

/-- Paired tokens between the partners of a bracket. -/
inductive IsGroup (bracket : Bracket) : List Token → Prop
  | intro {opener closer : Token} {inner : List Token} :
      Opens bracket bracket opener → Paired bracket inner → Closes bracket bracket closer →
      IsGroup bracket (opener :: (inner ++ [closer]))

/-- Brackets are left without partners, the innermost one first, and between them the tokens are
paired. -/
inductive LeavesOpen (outermost : Bracket) : List Bracket → List Token → Prop
  | none {tokens : List Token} : Paired outermost tokens → LeavesOpen outermost [] tokens
  | behind {bracket : Bracket} {opened : List Bracket} {opener : Token} {front inner : List Token} :
      LeavesOpen outermost opened front → Opens outermost bracket opener → Paired outermost inner →
      LeavesOpen outermost (bracket :: opened) (front ++ opener :: inner)

/-- How a group that the bracket opens ends in the tokens behind the opener. -/
inductive Ends (bracket : Bracket) : List Token → Closing → Prop
  | closed {closer : Token} {inner rest : List Token} :
      Paired bracket inner → Closes bracket bracket closer →
      Ends bracket (inner ++ closer :: rest) (.closed inner rest)
  | mismatched {other : Bracket} {opened : List Bracket} {found : Token} {front rest : List Token} :
      LeavesOpen bracket opened front → Closes bracket other found → other ≠ opened.headD bracket →
      Ends bracket (front ++ found :: rest) (.mismatched found (opened.headD bracket) rest)
  | endless {opened : List Bracket} {tokens : List Token} :
      LeavesOpen bracket opened tokens → Ends bracket tokens .endless

theorem ends_closed_iff : Ends bracket tokens (.closed inner rest) ↔
    ∃ closer, tokens = inner ++ closer :: rest ∧ Paired bracket inner ∧
      Closes bracket bracket closer := by
  constructor
  · intro h
    cases h with
    | @closed closer _ _ hinner hcloser => exact ⟨closer, rfl, hinner, hcloser⟩
  · rintro ⟨closer, rfl, hinner, hcloser⟩
    exact .closed hinner hcloser

/-- There is a group in front if the bracket that it begins with is closed. -/
theorem exists_isGroup_iff (hopener : Opens bracket bracket opener) :
    (∃ front, front <+: opener :: tokens ∧ IsGroup bracket front) ↔
      ∃ inner rest, Ends bracket tokens (.closed inner rest) := by
  constructor
  · rintro ⟨front, ⟨rest, hrest⟩, hgroup⟩
    cases hgroup with
    | @intro _ closer inner _ hinner hcloser =>
      rw [List.cons_append, List.append_assoc] at hrest
      have htokens : tokens = inner ++ closer :: rest := (List.cons.inj hrest).2.symm
      exact ⟨inner, rest, ends_closed_iff.mpr ⟨closer, htokens, hinner, hcloser⟩⟩
  · rintro ⟨inner, rest, hends⟩
    obtain ⟨closer, rfl, hinner, hcloser⟩ := ends_closed_iff.mp hends
    refine ⟨opener :: (inner ++ [closer]), ⟨rest, ?_⟩, .intro hopener hinner hcloser⟩
    rw [List.cons_append, List.append_assoc, List.singleton_append]

theorem Paired.append (hfront : Paired outermost front) (hback : Paired outermost back) :
    Paired outermost (front ++ back) := by
  induction hfront with
  | nil => exact hback
  | plain hplain _ ih => exact .plain hplain ih
  | group hopener hinner hcloser _ _ ih =>
    rw [List.cons_append, List.append_assoc]
    exact .group hopener hinner hcloser ih

theorem LeavesOpen.append (hfront : LeavesOpen outermost opened front)
    (hback : Paired outermost back) : LeavesOpen outermost opened (front ++ back) := by
  cases hfront with
  | none hpaired => exact .none (hpaired.append hback)
  | behind hfront hopener hinner =>
    rw [List.append_assoc]
    exact .behind hfront hopener (hinner.append hback)

/-- The partner of the innermost bracket makes a group with it. -/
theorem LeavesOpen.close (h : LeavesOpen outermost (bracket :: opened) front)
    (hcloser : Closes outermost bracket closer) :
    LeavesOpen outermost opened (front ++ [closer]) := by
  cases h with
  | behind hfront hopener hinner =>
    rw [List.append_assoc]
    exact hfront.append (.group hopener hinner hcloser .nil)

/-- Any tokens end a group in one of the three ways. -/
theorem LeavesOpen.exists_ends (h : LeavesOpen bracket opened front) (tokens : List Token) :
    ∃ closing, Ends bracket (front ++ tokens) closing := by
  induction tokens generalizing opened front with
  | nil => exact ⟨_, .endless (by simpa using h)⟩
  | cons token tokens ih =>
    -- Unless the group ends at the token, it is one more of those that went right.
    have hmore {opened : List Bracket} (h : LeavesOpen bracket opened (front ++ [token])) :
        ∃ closing, Ends bracket (front ++ token :: tokens) closing := by
      simpa using ih h
    rcases hrole : role bracket token with _ | other | other
    · exact hmore (h.append (.plain (role_eq_neutral_iff.mp hrole) .nil))
    · exact hmore (.behind h (role_eq_opens_iff.mp hrole) .nil)
    · have hcloser := role_eq_closes_iff.mp hrole
      by_cases hpartner : other = opened.headD bracket
      · cases h with
        | none hpaired =>
          obtain rfl : other = bracket := hpartner
          exact ⟨_, .closed hpaired hcloser⟩
        | @behind innermost _ _ _ _ hfront hopener hinner =>
          obtain rfl : other = innermost := hpartner
          exact hmore ((LeavesOpen.behind hfront hopener hinner).close hcloser)
      · exact ⟨_, .mismatched h hcloser hpartner⟩

/-! ## Following a group -/

private theorem closeFrom_of_plain (h : Plain outermost token) :
    closeFrom outermost innermost enclosing (token :: tokens) =
      (closeFrom outermost innermost enclosing tokens).cons token := by
  rw [closeFrom.eq_def]
  simp only [role_eq_neutral_iff.mpr h]

theorem closeFrom_of_opens (h : Opens outermost bracket token) :
    closeFrom outermost innermost enclosing (token :: tokens) =
      (closeFrom outermost bracket (innermost :: enclosing) tokens).cons token := by
  rw [closeFrom.eq_def]
  simp only [role_eq_opens_iff.mpr h]

private theorem closeFrom_of_closes_inner {next : Bracket} (h : Closes outermost innermost token) :
    closeFrom outermost innermost (next :: enclosing) (token :: tokens) =
      (closeFrom outermost next enclosing tokens).cons token := by
  rw [closeFrom.eq_def]
  simp only [role_eq_closes_iff.mpr h, ne_eq, not_true_eq_false, if_false]

private theorem closeFrom_of_closes_last (h : Closes outermost innermost token) :
    closeFrom outermost innermost [] (token :: tokens) = .closed [] tokens := by
  rw [closeFrom.eq_def]
  simp only [role_eq_closes_iff.mpr h, ne_eq, not_true_eq_false, if_false]

private theorem closeFrom_of_closes_other (h : Closes outermost other token)
    (hne : other ≠ innermost) : closeFrom outermost innermost enclosing (token :: tokens) =
      .mismatched token innermost tokens := by
  rw [closeFrom.eq_def]
  simp only [role_eq_closes_iff.mpr h, if_pos hne]

/-- Paired tokens leave the stack as it was. -/
theorem Paired.closeFrom_append (h : Paired outermost inner) :
    closeFrom outermost innermost enclosing (inner ++ tokens) =
      inner.foldr Closing.cons (closeFrom outermost innermost enclosing tokens) := by
  induction h generalizing innermost enclosing tokens with
  | nil => rfl
  | plain hplain _ ih => rw [List.cons_append, closeFrom_of_plain hplain, ih, List.foldr_cons]
  | group hopener _ hcloser _ ihinner ihtokens =>
    -- The bracket is put on top of the innermost one, and taken off again by its partner.
    rw [List.cons_append, closeFrom_of_opens hopener, List.append_assoc, ihinner, List.cons_append,
      closeFrom_of_closes_inner hcloser, ihtokens, List.foldr_cons, List.foldr_append,
      List.foldr_cons]

/-- Behind tokens that leave brackets open, the stack holds these on top of the first one. -/
theorem LeavesOpen.close_append (h : LeavesOpen bracket opened front) (tokens : List Token) :
    bracket.close (front ++ tokens) = front.foldr Closing.cons
      (closeFrom bracket (opened.headD bracket) (opened ++ [bracket]).tail tokens) := by
  induction h generalizing tokens with
  | none hpaired => exact hpaired.closeFrom_append
  | @behind other opened opener front inner _ hopener hinner ih =>
    have hstack : opened.headD bracket :: (opened ++ [bracket]).tail = opened ++ [bracket] := by
      cases opened <;> rfl
    rw [List.append_assoc, ih, List.cons_append, closeFrom_of_opens hopener,
      hinner.closeFrom_append, hstack, List.foldr_append, List.foldr_cons]
    rfl

@[simp] theorem foldr_cons_closed (front inner rest : List Token) :
    front.foldr Closing.cons (.closed inner rest) = .closed (front ++ inner) rest := by
  induction front with
  | nil => rfl
  | cons token front ih => rw [List.foldr_cons, ih, List.cons_append, Closing.cons]

@[simp]
private theorem foldr_cons_mismatched (front rest : List Token) (found : Token)
    (innermost : Bracket) : front.foldr Closing.cons (.mismatched found innermost rest) =
      .mismatched found innermost rest := by
  induction front with
  | nil => rfl
  | cons token front ih => rw [List.foldr_cons, ih, Closing.cons]

@[simp] theorem foldr_cons_endless (front : List Token) :
    front.foldr Closing.cons .endless = .endless := by
  induction front with
  | nil => rfl
  | cons token front ih => rw [List.foldr_cons, ih, Closing.cons]

theorem Ends.close_eq (h : Ends bracket tokens closing) : bracket.close tokens = closing := by
  cases h with
  | closed hinner hcloser =>
    rw [close, hinner.closeFrom_append, closeFrom_of_closes_last hcloser, foldr_cons_closed,
      List.append_nil]
  | mismatched hfront hcloser hne =>
    rw [hfront.close_append, closeFrom_of_closes_other hcloser hne, foldr_cons_mismatched]
  | endless hfront =>
    have hclose := hfront.close_append []
    rw [List.append_nil, closeFrom, foldr_cons_endless] at hclose
    exact hclose

/-- A group is followed to the end that the grammar gives it. -/
theorem close_eq_iff : bracket.close tokens = closing ↔ Ends bracket tokens closing := by
  refine ⟨?_, Ends.close_eq⟩
  rintro rfl
  have hnone : LeavesOpen bracket [] [] := .none .nil
  obtain ⟨closing, hends⟩ := hnone.exists_ends tokens
  rw [List.nil_append] at hends
  exact hends.close_eq.symm ▸ hends

end Bracket

/-! ## Reading a group -/

namespace Reader

variable {bracket : Bracket} {opener : Token}

theorem group_eq_ok_iff {scope : Scope} {tokens inner rest : List Token} :
    (group bracket scope (opener :: tokens)).result = .ok inner ∧
        (group bracket scope (opener :: tokens)).rest = rest ↔
      bracket.Ends tokens (.closed inner rest) := by
  rw [← Bracket.close_eq_iff]
  constructor
  · rintro ⟨hresult, hrest⟩
    exact reads_group_iff.mp ⟨hresult, hrest⟩
  · intro hclose
    have hreads : Reads (group bracket) scope (opener :: tokens) inner rest :=
      reads_group_iff.mpr hclose
    exact ⟨hreads.result_eq, hreads.rest_eq⟩

theorem result_group_eq_error_iff {scope : Scope} {tokens : List Token} {fault : Fault} :
    (group bracket scope (opener :: tokens)).result = .error fault ↔
      (∃ found innermost rest, bracket.close tokens = .mismatched found innermost rest ∧
        fault = {
          cause := .mismatched found.text innermost.closer
          place := scope.place
          line? := some found.line }) ∨
      bracket.close tokens = .endless ∧ fault = {
        cause := .unbalanced bracket.opener
        place := scope.place
        line? := some opener.line } := by
  rw [group, List.tail_cons]
  rcases bracket.close tokens with ⟨inner, rest⟩ | ⟨found, innermost, rest⟩ | _ <;>
    simp [fail, lineAt, eq_comm]

/-- A group is taken if there is one in front, and then without its brackets and up to its closer.
Where there is none, the fault lies where the tokens go wrong. -/
theorem group_recognizes (hopener : bracket.Opens bracket opener) (scope : Scope)
    (tokens : List Token) :
    let reading := group bracket scope (opener :: tokens)
    ((∃ inner, reading.result = .ok inner) ↔
      ∃ front, front <+: opener :: tokens ∧ bracket.IsGroup front) ∧
    (∀ inner rest, reading.result = .ok inner ∧ reading.rest = rest ↔
      ∃ closer, tokens = inner ++ closer :: rest ∧ bracket.Paired inner ∧
        bracket.Closes bracket closer) ∧
    ∀ fault, reading.result = .error fault ↔ fault.kind = .parsing ∧
      ((∃ found innermost rest, bracket.Ends tokens (.mismatched found innermost rest) ∧
        fault = {
          cause := .mismatched found.text innermost.closer
          place := scope.place
          line? := some found.line }) ∨
      bracket.Ends tokens .endless ∧ fault = {
        cause := .unbalanced bracket.opener
        place := scope.place
        line? := some opener.line }) := by
  intro reading
  refine ⟨?_, fun inner rest ↦ group_eq_ok_iff.trans Bracket.ends_closed_iff, fun fault ↦ ?_⟩
  · rw [Bracket.exists_isGroup_iff hopener]
    constructor
    · rintro ⟨inner, hinner⟩
      exact ⟨inner, reading.rest, group_eq_ok_iff.mp ⟨hinner, rfl⟩⟩
    · rintro ⟨inner, rest, hends⟩
      exact ⟨inner, (group_eq_ok_iff.mpr hends).1⟩
  · rw [result_group_eq_error_iff]
    simp only [Bracket.close_eq_iff]
    refine ⟨fun h ↦ ⟨?_, h⟩, And.right⟩
    rcases h with ⟨_, _, _, -, rfl⟩ | ⟨-, rfl⟩ <;> rfl

/-- A group in angle brackets holds a string literal that looks like its closer. In a group in
parentheses an angle bracket is none, and a square bracket is left open where it should end. -/
theorem group_recognizes_mixed :
    let mark (text : String) (line : Nat) : Token := { kind := .punctuation, text, line }
    let literal : Token := { kind := .string, text := ">", line := 1 }
    let tokens := [mark "[" 1, literal, mark "]" 1, mark ">" 2, mark "." 2]
    let others := [mark "<" 1, mark "[" 1, mark ")" 2]
    (Bracket.Opens .angle .angle (mark "<" 1) ∧
      ∃ front, front <+: mark "<" 1 :: tokens ∧ Bracket.IsGroup .angle front) ∧
    Bracket.Opens .round .round (mark "(" 1) ∧
      ∃ found rest, Bracket.Ends .round others (.mismatched found .square rest) ∧
        found.line = 2 := by
  intro mark literal tokens others
  let scope : Scope := { finish := { line := 3 } }
  have hangle : Bracket.Opens .angle .angle (mark "<" 1) := by
    constructor <;> simp [mark, Bracket.opener]
  have hround : Bracket.Opens .round .round (mark "(" 1) := by
    constructor <;> simp [mark, Bracket.opener]
  obtain ⟨htaken, -, -⟩ := group_recognizes hangle scope tokens
  obtain ⟨-, -, hrefused⟩ := group_recognizes hround scope others
  refine ⟨⟨hangle, htaken.mp ⟨tokens.take 3, rfl⟩⟩, hround, ?_⟩
  obtain ⟨-, ⟨found, innermost, rest, hends, hfault⟩ | ⟨-, hfault⟩⟩ := (hrefused {
    cause := .mismatched ")" "]"
    line? := some 2 }).mp rfl
  · have hcause : ")" = found.text ∧ "]" = innermost.closer :=
      Cause.mismatched.inj (congrArg Fault.cause hfault)
    have hline : (2 : Int) = found.line := Option.some.inj (congrArg Fault.line? hfault)
    obtain rfl : innermost = .square := Bracket.closer_injective hcause.2.symm
    exact ⟨found, rest, hends, by omega⟩
  · cases congrArg Fault.cause hfault

end Reader

end TestDouble
