import TestDouble.Proofs.Reader.Basic
import TestDouble.Proofs.Token.Round
import TestDouble.Proofs.Token.Tail

/-!
# Readings across a seam

A body ends at a brace, and a longer one goes on where the brace was. A reading of the shorter body
that stops somewhere before its end is also a reading of the longer one, if no part of the body is
recognized by what has taken the place of the brace. Readers look ahead, some of them by more than a
token, so each has its own condition on the place where it stops; it is met because of what is read
from that place on.

Along the way, every reading closes at least as many braces as it opens.
-/

namespace TestDouble

open Reader Token

/-! ## Braces -/

/-- Tokens with no more opening than closing braces. -/
def Levels (tokens : List Token) : Prop :=
  tokens.countP (·.is "\x7b") ≤ tokens.countP (·.is "\x7d")

theorem Levels.append {front back : List Token} (hfront : Levels front) (hback : Levels back) :
    Levels (front ++ back) := by
  rw [Levels] at hfront hback ⊢
  rw [List.countP_append, List.countP_append]
  omega

private theorem levels_singleton {token : Token} (h : token.is "\x7b" = false) :
    Levels [token] := by
  simp [Levels, h]

theorem levels_of_text {token : Token} (h : token.text ≠ "\x7b") : Levels [token] :=
  levels_singleton (by simp [Token.is, h])

theorem Token.not_brace_of_kind {token : Token} (hspelled : Spelled token.kind token.text.toList)
    (hkind : token.kind ≠ .punctuation) : token.is "\x7b" = false := by
  have hbrace : Spelled .punctuation "\x7b".toList := by decide +kernel
  by_contra his
  rw [Bool.not_eq_false, Token.is, Bool.and_eq_true, decide_eq_true_eq, decide_eq_true_eq] at his
  rw [his.2] at hspelled
  exact hkind (hspelled.kind_eq hbrace)

theorem Token.not_brace_of_name {token : Token} (hspelled : Spelled token.kind token.text.toList)
    (hname : token.isName = true) : token.is "\x7b" = false := by
  refine not_brace_of_kind hspelled fun hkind ↦ ?_
  simp [Token.isName, hkind] at hname

namespace Bracket

private theorem not_brace_of_neutral {outermost : Bracket} {token : Token}
    (hspelled : Spelled token.kind token.text.toList) (h : role outermost token = .neutral) :
    token.is "\x7b" = false := by
  by_contra his
  rw [Bool.not_eq_false] at his
  have hnumber : token.kind ≠ .number := by
    intro hkind
    have hnot : token.is "\x7b" = false := not_brace_of_kind hspelled (by rw [hkind]; decide)
    rw [hnot] at his
    cases his
  rw [Token.is, Bool.and_eq_true, decide_eq_true_eq, decide_eq_true_eq] at his
  have hopener : (ofOpener? "\x7b").filter (·.nestsIn outermost) = some .curly := by
    cases outermost <;> rfl
  rw [role, if_neg (by simp [his.1, hnumber]), his.2, hopener] at h
  cases h

/-- An opener puts a brace on the stack where it is one itself. -/
theorem count_opener {bracket : Bracket} {token : Token} (h : token.is bracket.opener = true)
    (enclosing : List Bracket) (back : List Token) :
    (bracket :: enclosing).count .curly + back.countP (·.is "\x7b") =
      enclosing.count .curly + (token :: back).countP (·.is "\x7b") := by
  by_cases hcurly : bracket = .curly
  · subst hcurly
    have hopen : (token :: back).countP (·.is "\x7b") = back.countP (·.is "\x7b") + 1 :=
      List.countP_cons_of_pos h
    rw [List.count_cons_self]
    omega
  · have hopen : token.is "\x7b" = false :=
      is_eq_false_of_is h fun heq ↦ hcurly (@opener_injective bracket .curly heq)
    rw [List.count_cons_of_ne hcurly, List.countP_cons_of_neg (by simp [hopen])]

/-- A closer takes a brace off the stack where it is one itself. -/
theorem count_closer {bracket : Bracket} {token : Token} (h : token.is bracket.closer = true)
    (enclosing : List Bracket) (back : List Token) :
    (bracket :: enclosing).count .curly + back.countP (·.is "\x7d") =
      enclosing.count .curly + (token :: back).countP (·.is "\x7d") := by
  by_cases hcurly : bracket = .curly
  · subst hcurly
    have hclose : (token :: back).countP (·.is "\x7d") = back.countP (·.is "\x7d") + 1 :=
      List.countP_cons_of_pos h
    rw [List.count_cons_self]
    omega
  · have hclose : token.is "\x7d" = false :=
      is_eq_false_of_is h fun heq ↦ hcurly (@closer_injective bracket .curly heq)
    rw [List.count_cons_of_ne hcurly, List.countP_cons_of_neg (by simp [hclose])]

/-- A group closes the braces that it opens, and those that it is inside of. -/
theorem UpTo.levels {outermost innermost : Bracket} {enclosing : List Bracket}
    {inner : List Token} {closer : Token} (h : UpTo outermost innermost enclosing inner closer)
    (hspelled : ∀ token ∈ inner, Spelled token.kind token.text.toList) :
    (innermost :: enclosing).count .curly + (inner ++ [closer]).countP (·.is "\x7b") ≤
      (inner ++ [closer]).countP (·.is "\x7d") := by
  have hlater (token : Token) (back : List Token) :
      back.countP (·.is "\x7d") ≤ (token :: back).countP (·.is "\x7d") :=
    (List.sublist_cons_self token back).countP_le
  have hopen {bracket : Bracket} {token : Token} (hrole : role outermost token = .closes bracket) :
      token.is "\x7b" = false :=
    is_eq_false_of_is (is_of_role_closes hrole) (opener_ne_closer .curly bracket).symm
  induction h with
  | last hrole =>
    have hclose := count_closer (is_of_role_closes hrole) [] []
    simp only [List.count_nil, List.countP_nil] at hclose
    rw [List.nil_append, List.countP_cons_of_neg (by simp [hopen hrole]), List.countP_nil]
    omega
  | neutral hrole _ ih =>
    obtain ⟨hfirst, hspelled⟩ := List.forall_mem_cons.mp hspelled
    have hopen := not_brace_of_neutral hfirst hrole
    rw [List.cons_append, List.countP_cons_of_neg (by simp [hopen])]
    exact (ih hspelled).trans (hlater _ _)
  | opens hrole _ ih =>
    rw [List.cons_append, ← count_opener (is_of_role_opens hrole)]
    exact (ih (List.forall_mem_cons.mp hspelled).2).trans (hlater _ _)
  | @closes _ next outer _ closer inner hrole _ ih =>
    have hclose := count_closer (is_of_role_closes hrole) (next :: outer) (inner ++ [closer])
    have hlevel := ih (List.forall_mem_cons.mp hspelled).2
    rw [List.cons_append, List.countP_cons_of_neg (by simp [hopen hrole])]
    omega

end Bracket

/-- A group is level, and what follows it is of no influence on it. -/
theorem Reader.levels_of_reads_group {bracket : Bracket} {scope : Scope}
    {tokens inner rest : List Token}
    (hspelled : ∀ token ∈ tokens, Spelled token.kind token.text.toList)
    (hopens : stands [bracket.opener] tokens = true)
    (h : Reads (group bracket) scope tokens inner rest) :
    ∃ taken, tokens = taken ++ rest ∧ Levels taken ∧
      ∀ scope others, Reads (group bracket) scope (taken ++ others) inner others := by
  obtain ⟨opener, back, rfl, his⟩ := stands_singleton_eq_true_iff.mp hopens
  obtain ⟨closer, rfl, hinner⟩ := Bracket.closeFrom_eq_closed_iff.mp (reads_group_iff.mp h)
  have hback := (List.forall_mem_cons.mp hspelled).2
  have hlevel := hinner.levels fun token htoken ↦ hback token (List.mem_append_left _ htoken)
  refine ⟨opener :: (inner ++ [closer]), ?_, ?_, fun scope others ↦ reads_group_iff.mpr ?_⟩
  · simp
  · have hopen := Bracket.count_opener his [] (inner ++ [closer])
    rw [List.count_nil, Nat.zero_add] at hopen
    rw [Levels, ← hopen]
    exact hlevel.trans (List.sublist_cons_self opener _).countP_le
  · rw [List.cons_append, List.append_assoc]
    exact hinner.closeFrom_append others

/-! ## Seams -/

/-- What parts of a body are recognized by. -/
def sought : List String :=
  ["(", ")", "[", "]", "<", ">", ":", ",", "=", "...", "&", ".", "->", "?", "!", "inout", "async",
   "throws", "rethrows", "where", "set", "protocol", "some", "any", "borrowing", "consuming",
   "sending", "__owned", "__shared"]

/-- The end of a body, and what stands in its place where the body goes on. -/
structure Seam where
  brace : Token
  next : Token
  more : List Token
  /-- What the reading of the body may tell. -/
  told : Notice → Prop
  brace_is : brace.is "\x7d" = true
  brace_kind : brace.kind = .punctuation
  brace_freshLine : brace.freshLine = true
  next_text : next.text ∉ sought

namespace Seam

variable (seam : Seam)

/-- The tokens with what goes on in place of a brace at their end. -/
def extend : List Token → List Token
  | [] => []
  | [token] => if token = seam.brace then seam.next :: seam.more else [token]
  | token :: second :: tokens => token :: extend (second :: tokens)

variable {seam} {tokens rest : List Token} {token : Token}

@[simp] theorem extend_brace : seam.extend [seam.brace] = seam.next :: seam.more := by
  rw [extend, if_pos rfl]

theorem extend_cons (h : token :: tokens ≠ [seam.brace]) :
    seam.extend (token :: tokens) = token :: seam.extend tokens := by
  cases tokens with
  | nil =>
    exact if_neg (by simpa using h)
  | cons second tokens => rw [extend]

/-- In front of tokens that end at the brace, no token is the brace at the end. -/
theorem extend_cons_of_suffix (h : [seam.brace] <:+ tokens) :
    seam.extend (token :: tokens) = token :: seam.extend tokens := by
  apply extend_cons
  obtain ⟨front, rfl⟩ := h
  simp

theorem extend_append (taken : List Token) (h : [seam.brace] <:+ rest) :
    seam.extend (taken ++ rest) = taken ++ seam.extend rest := by
  induction taken with
  | nil => rfl
  | cons token taken ih =>
    rw [List.cons_append, extend_cons_of_suffix (h.trans (List.suffix_append taken rest)), ih,
      List.cons_append]

theorem brace_is_eq_false {text : String} (htext : text ∈ sought) :
    seam.brace.is text = false := by
  have hbrace : "\x7d" ∉ sought := by decide
  exact is_eq_false_of_is seam.brace_is fun heq ↦ hbrace (heq ▸ htext)

theorem next_is_eq_false {text : String} (htext : text ∈ sought) :
    seam.next.is text = false := by
  have hne : seam.next.text ≠ text := fun heq ↦ seam.next_text (heq ▸ htext)
  simp [Token.is, hne]

theorem ne_brace_of_is {text : String} (htext : text ∈ sought) (his : token.is text = true) :
    token :: tokens ≠ [seam.brace] := by
  intro heq
  rw [(List.cons.inj heq).1, brace_is_eq_false htext] at his
  cases his

/-- Nothing is recognized by what goes on in place of the brace. -/
theorem any_is_eq_false {texts : List String} (htexts : ∀ text ∈ texts, text ∈ sought) :
    texts.any seam.brace.is = false ∧ texts.any seam.next.is = false := by
  constructor
  · refine List.any_eq_false.mpr fun text htext his ↦ ?_
    rw [brace_is_eq_false (htexts text htext)] at his
    cases his
  · refine List.any_eq_false.mpr fun text htext his ↦ ?_
    rw [next_is_eq_false (htexts text htext)] at his
    cases his

/-- The first token stays, or else it is the brace. -/
theorem eq_brace_or_head?_extend (tokens : List Token) :
    tokens = [seam.brace] ∨ (seam.extend tokens).head? = tokens.head? := by
  rcases tokens with _ | ⟨token, tokens⟩
  · exact .inr rfl
  · by_cases hbrace : token :: tokens = [seam.brace]
    · exact .inl hbrace
    · rw [extend_cons hbrace]
      exact .inr rfl

theorem stands_extend {texts : List String} (htexts : ∀ text ∈ texts, text ∈ sought)
    (tokens : List Token) : stands texts (seam.extend tokens) = stands texts tokens := by
  rcases seam.eq_brace_or_head?_extend tokens with rfl | hhead
  · obtain ⟨hbrace, hnext⟩ := seam.any_is_eq_false htexts
    rw [extend_brace, stands, stands]
    simp only [List.head?_cons, Option.any_some, hbrace, hnext]
  · rw [stands, stands, hhead]

theorem isEmpty_extend (tokens : List Token) : (seam.extend tokens).isEmpty = tokens.isEmpty := by
  rcases tokens with _ | ⟨token, tokens⟩
  · rfl
  · by_cases hbrace : token :: tokens = [seam.brace]
    · rw [hbrace, extend_brace]
      rfl
    · rw [extend_cons hbrace]
      rfl

theorem length_le_extend (tokens : List Token) : tokens.length ≤ (seam.extend tokens).length := by
  induction tokens with
  | nil => exact Nat.le_refl 0
  | cons token tokens ih =>
    by_cases hbrace : token :: tokens = [seam.brace]
    · rw [hbrace, extend_brace]
      simp
    · rw [extend_cons hbrace]
      exact Nat.succ_le_succ ih

end Seam

/-! ## Readers that hold the seam -/

namespace Reader

variable {α β : Type} {read : Reader α} {next : α → Reader β} {scope : Scope}
  {tokens mid rest : List Token}

/-- All that the reading tells may be told. -/
def Tells (told : Notice → Prop) (read : Reader α) (scope : Scope) (tokens : List Token) : Prop :=
  ∀ notice ∈ (read scope tokens).notices, told notice

theorem Tells.of_bind {told : Notice → Prop} {a : α} (hread : Reads read scope tokens a mid)
    (h : Tells told (read >>= next) scope tokens) :
    Tells told read scope tokens ∧ Tells told (next a) scope mid := by
  obtain ⟨hresult, rfl⟩ := hread
  have hnotices : ((read >>= next) scope tokens).notices =
      (read scope tokens).notices ++ (next a scope (read scope tokens).rest).notices := by
    simp only [bind, hresult]
  unfold Tells at h
  rw [hnotices] at h
  exact List.forall_mem_append.mp h

section Repetition

variable {told : Notice → Prop} {turn : Nat → Reader (Turn α)} {number : Nat} {a : α}

theorem Tells.of_repeatFrom_last {result : Turn α}
    (hturn : Reads (turn number) scope tokens result mid)
    (hlast : ∀ a, result = .more a → ¬ mid.length < tokens.length)
    (h : Tells told (repeatFrom turn number) scope tokens) :
    Tells told (turn number) scope tokens := by
  obtain ⟨hresult, rfl⟩ := hturn
  have hnotices : (repeatFrom turn number scope tokens).notices =
      (turn number scope tokens).notices := by
    rw [repeatFrom]
    cases result with
    | stop | last => simp only [hresult]
    | more a => simp only [hresult, if_neg (hlast a rfl)]
  unfold Tells at h
  rwa [hnotices] at h

theorem Tells.of_repeatFrom (h : Tells told (repeatFrom turn number) scope tokens)
    (hturn : Reads (turn number) scope tokens (.more a) mid) (hlt : mid.length < tokens.length) :
    Tells told (turn number) scope tokens ∧
      Tells told (repeatFrom turn (number + 1)) scope mid := by
  obtain ⟨hresult, rfl⟩ := hturn
  have hnotices : (repeatFrom turn number scope tokens).notices =
      (turn number scope tokens).notices ++
        (repeatFrom turn (number + 1) scope (turn number scope tokens).rest).notices := by
    rw [repeatFrom]
    simp only [hresult, if_pos hlt]
  unfold Tells at h
  rw [hnotices] at h
  exact List.forall_mem_append.mp h

end Repetition

@[simp] theorem not_reads_fail_bind {cause : Cause} {line? : Option Nat} {b : β} :
    ¬ Reads (Reader.fail cause line? >>= next) scope tokens b rest := by
  intro h
  obtain ⟨_, _, hfail, -⟩ := reads_bind_iff.mp h
  exact not_reads_fail hfail

/-- A repetition reads what another one reads that takes the same turns. -/
theorem Reads.repeatFrom_congr {turn turn' : Nat → Reader (Turn α)} {number : Nat} {items : List α}
    (h : Reads (repeatFrom turn number) scope tokens items rest)
    (hturn : ∀ number tokens result rest, Reads (turn number) scope tokens result rest →
      Reads (turn' number) scope tokens result rest) :
    Reads (repeatFrom turn' number) scope tokens items rest := by
  induction h using Reads.repeatFrom_induction with
  | stop hstop => exact .repeatFrom_stop (hturn _ _ _ _ hstop)
  | last hlast => exact .repeatFrom_last (hturn _ _ _ _ hlast)
  | more hmore hlt _ ih => exact .repeatFrom_more (hturn _ _ _ _ hmore) hlt ih
  | stuck hmore hstuck => exact .repeatFrom_stuck (hturn _ _ _ _ hmore) hstuck

/-- Turns that do not depend on their number can be counted from anywhere. -/
theorem repeatFrom_const (turn : Reader (Turn α)) (number number' : Nat) :
    repeatFrom (fun _ ↦ turn) number = repeatFrom (fun _ ↦ turn) number' := by
  funext scope tokens
  induction hlength : tokens.length using Nat.strongRecOn generalizing tokens number number' with
  | ind length ih =>
    rw [repeatFrom.eq_def _ number, repeatFrom.eq_def _ number']
    by_cases hlt : (turn scope tokens).rest.length < tokens.length
    · simp only [ih _ (hlength ▸ hlt) (number + 1) (number' + 1) _ rfl]
    · simp only [if_neg hlt]

/-- Where turns begin with a mark, it stands in front of all that they read. -/
theorem stands_or_eq_of_reads_turns {text : String} {more : Reader (Turn α)} {number : Nat}
    {items : List α} (h : Reads (repeatFrom (fun _ ↦ do
      if ← accept text then more else return Turn.stop) number) scope tokens items rest) :
    stands [text] tokens = true ∨ tokens = rest := by
  have hfirst {result : Turn α} {mid : List Token} (hturn : Reads (do
      if ← accept text then more else return Turn.stop) scope tokens result mid) :
      stands [text] tokens = true ∨ result = .stop ∧ tokens = mid := by
    obtain ⟨accepted, back, haccept, hturn⟩ := reads_bind_iff.mp hturn
    rcases reads_accept_iff.mp haccept with ⟨rfl, token, rfl, his⟩ | ⟨rfl, -, rfl⟩
    · exact .inl (by simpa)
    · obtain ⟨rfl, rfl⟩ := reads_pure_iff.mp hturn
      exact .inr ⟨rfl, rfl⟩
  rcases reads_repeatFrom_iff.mp h with ⟨hturn, -⟩ | ⟨_, hturn, -⟩ | ⟨_, _, _, hturn, -⟩ |
    ⟨_, hturn, -⟩
  · exact (hfirst hturn).imp_right And.right
  all_goals
    rcases hfirst hturn with hstands | ⟨hstop, -⟩
    · exact .inl hstands
    · cases hstop

end Reader

namespace Seam

variable {α β : Type} {seam : Seam} {scope : Scope} {tokens : List Token}
  {read read' : Reader α} {follow : α → List Token → Prop}

variable (seam) in
/-- What is read comes off the front of the tokens and is level, and it is read as well where the
body goes on, provided that `follow` holds of the value and of the tokens left. The scope matters
for faults only. -/
def Holds (follow : α → List Token → Prop) (read read' : Reader α) (scope : Scope)
    (tokens : List Token) : Prop :=
  (∀ token ∈ tokens, Spelled token.kind token.text.toList) →
    ∀ ⦃a : α⦄ ⦃rest : List Token⦄, Reads read scope tokens a rest →
      ∃ taken, tokens = taken ++ rest ∧ Levels taken ∧
        ([seam.brace] <:+ rest → follow a rest → Tells seam.told read scope tokens →
          ∀ scope', Reads read' scope' (seam.extend tokens) a (seam.extend rest))

/-- Anything may follow. -/
abbrev anywhere (_ : α) (_ : List Token) : Prop := True

namespace Holds

theorem mono {follow' : α → List Token → Prop} (h : seam.Holds follow read read' scope tokens)
    (himp : ∀ a rest, [seam.brace] <:+ rest → follow' a rest → follow a rest) :
    seam.Holds follow' read read' scope tokens := by
  intro hspelled a rest hread
  obtain ⟨taken, htokens, hlevels, hextend⟩ := h hspelled hread
  exact ⟨taken, htokens, hlevels, fun hbrace hfollow ↦ hextend hbrace (himp a rest hbrace hfollow)⟩

theorem of_not_reads (h : ∀ a rest, ¬ Reads read scope tokens a rest) :
    seam.Holds follow read read' scope tokens :=
  fun _ a rest hread ↦ absurd hread (h a rest)

/-- Where only the brace is left, a reader that takes it leaves nothing to hold. -/
theorem of_brace (h : ∀ a rest, Reads read scope [seam.brace] a rest → rest = []) :
    seam.Holds follow read read' scope [seam.brace] := by
  intro _ a rest hread
  obtain rfl := h a rest hread
  have hlevel : seam.brace.is "\x7b" = false := is_eq_false_of_is seam.brace_is (by decide)
  exact ⟨[seam.brace], rfl, levels_singleton hlevel, fun hbrace ↦ by simp at hbrace⟩

/-- In some cases a reader takes nothing and stops where nothing can be told of it. -/
theorem of_not {p : Prop} (h : ¬ p → seam.Holds follow read read' scope tokens)
    (hp : p → (∀ token ∈ tokens, Spelled token.kind token.text.toList) →
      ∀ a rest, Reads read scope tokens a rest → rest = tokens ∧ ¬ follow a tokens) :
    seam.Holds follow read read' scope tokens := by
  by_cases hcase : p
  · intro hspelled a rest hread
    obtain ⟨rfl, hnot⟩ := hp hcase hspelled a rest hread
    exact ⟨[], rfl, Nat.le_refl 0, fun _ hfollow ↦ absurd hfollow hnot⟩
  · exact h hcase

/-- Where reading stops at a place that is excluded, any other reader does. -/
theorem of_not_follow {read'' : Reader α} (h : seam.Holds follow read read'' scope tokens)
    (hnot : ∀ a rest, Reads read scope tokens a rest → ¬ follow a rest) :
    seam.Holds follow read read' scope tokens := by
  intro hspelled a rest hread
  obtain ⟨taken, htokens, hlevels, -⟩ := h hspelled hread
  exact ⟨taken, htokens, hlevels, fun _ hfollow ↦ absurd hfollow (hnot a rest hread)⟩

theorem pure {a : α} : seam.Holds follow (Pure.pure a) (Pure.pure a) scope tokens := by
  intro _ b rest hread
  obtain ⟨rfl, rfl⟩ := reads_pure_iff.mp hread
  exact ⟨[], rfl, Nat.le_refl 0, fun _ _ _ _ ↦ .pure⟩

theorem fail {cause cause' : Cause} {line? line?' : Option Nat} :
    seam.Holds follow (Reader.fail cause line?) (Reader.fail cause' line?') scope tokens :=
  of_not_reads fun _ _ ↦ not_reads_fail

theorem fail_bind {follow : β → List Token → Prop} {cause cause' : Cause}
    {line? line?' : Option Nat} {next next' : α → Reader β} :
    seam.Holds follow (Reader.fail cause line? >>= next) (Reader.fail cause' line?' >>= next') scope
      tokens :=
  of_not_reads fun _ _ ↦ not_reads_fail_bind

theorem refuse {cause : Cause} :
    seam.Holds follow (Reader.refuse cause) (Reader.refuse cause) scope tokens :=
  of_not_reads fun _ _ ↦ not_reads_refuse

/-- After a part that holds the seam where `part` is true of what is left, what is read next and
told about it has to make it true. -/
theorem bind_of_tells {follow : β → List Token → Prop} {part : α → List Token → Prop}
    {next next' : α → Reader β} (h : seam.Holds part read read' scope tokens)
    (hnext : ∀ a mid, seam.Holds follow (next a) (next' a) scope mid)
    (hpart : ∀ a mid b rest, (∀ token ∈ mid, Spelled token.kind token.text.toList) →
      Reads (next a) scope mid b rest → rest <:+ mid → [seam.brace] <:+ rest → follow b rest →
      Tells seam.told (next a) scope mid → part a mid) :
    seam.Holds follow (read >>= next) (read' >>= next') scope tokens := by
  intro hspelled b rest hread
  obtain ⟨a, mid, hfirst, hsecond⟩ := reads_bind_iff.mp hread
  obtain ⟨front, rfl, hfront, hextend⟩ := h hspelled hfirst
  have hmid : ∀ token ∈ mid, Spelled token.kind token.text.toList := fun token htoken ↦
    hspelled token (List.mem_append_right front htoken)
  obtain ⟨back, rfl, hback, hextend'⟩ := hnext a mid hmid hsecond
  refine ⟨front ++ back, (List.append_assoc ..).symm, hfront.append hback, ?_⟩
  intro hbrace hfollow htells scope'
  obtain ⟨htells, htells'⟩ := htells.of_bind hfirst
  have hsuffix := List.suffix_append back rest
  have hread := hextend (hbrace.trans hsuffix)
    (hpart a _ b rest hmid hsecond hsuffix hbrace hfollow htells') htells scope'
  exact reads_bind_iff.mpr ⟨a, _, hread, hextend' hbrace hfollow htells' scope'⟩

theorem bind_of {follow : β → List Token → Prop} {part : α → List Token → Prop}
    {next next' : α → Reader β} (h : seam.Holds part read read' scope tokens)
    (hnext : ∀ a mid, seam.Holds follow (next a) (next' a) scope mid)
    (hpart : ∀ a mid b rest, (∀ token ∈ mid, Spelled token.kind token.text.toList) →
      Reads (next a) scope mid b rest → rest <:+ mid → [seam.brace] <:+ rest → follow b rest →
      part a mid) :
    seam.Holds follow (read >>= next) (read' >>= next') scope tokens :=
  h.bind_of_tells hnext fun a mid b rest hmid hread hsuffix hbrace hfollow _ ↦
    hpart a mid b rest hmid hread hsuffix hbrace hfollow

theorem bind {follow : β → List Token → Prop} {next next' : α → Reader β}
    (h : seam.Holds anywhere read read' scope tokens)
    (hnext : ∀ a mid, seam.Holds follow (next a) (next' a) scope mid) :
    seam.Holds follow (read >>= next) (read' >>= next') scope tokens :=
  h.bind_of hnext fun _ _ _ _ _ _ _ _ _ ↦ trivial

/-- A value made of what is read last is followed by the same. -/
theorem bind_pure {follow : β → List Token → Prop} {f : α → β}
    (h : seam.Holds (fun a ↦ follow (f a)) read read' scope tokens) :
    seam.Holds follow (read >>= fun a ↦ Pure.pure (f a)) (read' >>= fun a ↦ Pure.pure (f a)) scope
      tokens :=
  h.bind_of (fun _ _ ↦ .pure) fun a mid b rest _ hread _ _ hfollow ↦ by
    obtain ⟨rfl, rfl⟩ := reads_pure_iff.mp hread
    exact hfollow

theorem map {follow : β → List Token → Prop} {f : α → β}
    (h : seam.Holds (fun a ↦ follow (f a)) read read' scope tokens) :
    seam.Holds follow (f <$> read) (f <$> read') scope tokens :=
  h.bind_pure

theorem ite {p p' : Prop} [Decidable p] [Decidable p'] {other other' : Reader α} (hp : p ↔ p')
    (h : p → seam.Holds follow read read' scope tokens)
    (hother : ¬ p → seam.Holds follow other other' scope tokens) :
    seam.Holds follow (if p then read else other) (if p' then read' else other') scope tokens := by
  by_cases hcond : p
  · rw [if_pos hcond, if_pos (hp.mp hcond)]
    exact h hcond
  · rw [if_neg hcond, if_neg fun h ↦ hcond (hp.mpr h)]
    exact hother hcond

theorem ahead_bind {next next' : List Token → Reader α}
    (h : seam.Holds follow (next tokens) (next' (seam.extend tokens)) scope tokens) :
    seam.Holds follow (ahead >>= next) (ahead >>= next') scope tokens := by
  intro hspelled a rest hread
  obtain ⟨taken, htokens, hlevels, hextend⟩ := h hspelled (reads_ahead_bind_iff.mp hread)
  refine ⟨taken, htokens, hlevels, fun hbrace hfollow htells scope' ↦ reads_ahead_bind_iff.mpr ?_⟩
  exact hextend hbrace hfollow (htells.of_bind (reads_ahead_iff.mpr ⟨rfl, rfl⟩)).2 scope'

theorem sees_bind_of_stands {text : String} {next next' : Bool → Reader α}
    (hstands : stands [text] (seam.extend tokens) = stands [text] tokens)
    (h : seam.Holds follow (next (stands [text] tokens)) (next' (stands [text] tokens)) scope
      tokens) : seam.Holds follow (sees text >>= next) (sees text >>= next') scope tokens := by
  intro hspelled a rest hread
  obtain ⟨taken, htokens, hlevels, hextend⟩ := h hspelled (reads_sees_bind_iff.mp hread)
  refine ⟨taken, htokens, hlevels, fun hbrace hfollow htells scope' ↦ reads_sees_bind_iff.mpr ?_⟩
  rw [hstands]
  exact hextend hbrace hfollow (htells.of_bind (reads_sees_iff.mpr ⟨rfl, rfl⟩)).2 scope'

theorem sees_bind {text : String} {next next' : Bool → Reader α} (htext : text ∈ sought)
    (h : seam.Holds follow (next (stands [text] tokens)) (next' (stands [text] tokens)) scope
      tokens) : seam.Holds follow (sees text >>= next) (sees text >>= next') scope tokens :=
  sees_bind_of_stands (stands_extend (List.forall_mem_singleton.mpr htext) tokens) h

theorem tell_bind {notice notice' : Notice} {next next' : Unit → Reader α}
    (h : seam.Holds follow (next ()) (next' ()) scope tokens) :
    seam.Holds follow (tell notice >>= next) (tell notice' >>= next') scope tokens := by
  intro hspelled a rest hread
  obtain ⟨taken, htokens, hlevels, hextend⟩ := h hspelled (reads_tell_bind_iff.mp hread)
  refine ⟨taken, htokens, hlevels, fun hbrace hfollow htells scope' ↦ reads_tell_bind_iff.mpr ?_⟩
  exact hextend hbrace hfollow (htells.of_bind (reads_tell_iff.mpr rfl)).2 scope'

/-- A token other than an opening brace is taken in front of what is read. -/
theorem next?_bind {token : Token} {next next' : Option Token → Reader α}
    (hlevel : Spelled token.kind token.text.toList → token.is "\x7b" = false)
    (h : seam.Holds follow (next (some token)) (next' (some token)) scope tokens) :
    seam.Holds follow (next? >>= next) (next? >>= next') scope (token :: tokens) := by
  intro hspelled a rest hread
  obtain ⟨hfirst, hspelled⟩ := List.forall_mem_cons.mp hspelled
  obtain ⟨taken, rfl, hlevels, hextend⟩ := h hspelled (reads_next?_bind_iff.mp hread)
  refine ⟨token :: taken, rfl, (levels_singleton (hlevel hfirst)).append hlevels, ?_⟩
  intro hbrace hfollow htells scope'
  rw [extend_cons_of_suffix (hbrace.trans (List.suffix_append taken rest))]
  refine reads_next?_bind_iff.mpr (hextend hbrace hfollow ?_ scope')
  exact (htells.of_bind (reads_next?_iff.mpr ⟨rfl, rfl⟩)).2

theorem skip_bind {token : Token} {next next' : Unit → Reader α}
    (hlevel : Spelled token.kind token.text.toList → token.is "\x7b" = false)
    (h : seam.Holds follow (next ()) (next' ()) scope tokens) :
    seam.Holds follow (skip >>= next) (skip >>= next') scope (token :: tokens) := by
  intro hspelled a rest hread
  obtain ⟨hfirst, hspelled⟩ := List.forall_mem_cons.mp hspelled
  obtain ⟨taken, rfl, hlevels, hextend⟩ := h hspelled (reads_skip_bind_iff.mp hread)
  refine ⟨token :: taken, rfl, (levels_singleton (hlevel hfirst)).append hlevels, ?_⟩
  intro hbrace hfollow htells scope'
  rw [extend_cons_of_suffix (hbrace.trans (List.suffix_append taken rest))]
  refine reads_skip_bind_iff.mpr (hextend hbrace hfollow ?_ scope')
  exact (htells.of_bind (reads_skip_iff.mpr rfl)).2

theorem expect {text context : String} (htext : text ≠ "\x7b") :
    seam.Holds anywhere (expect text context) (expect text context) scope tokens := by
  intro _ token rest hread
  obtain ⟨rfl, his⟩ := reads_expect_iff.mp hread
  have hlevel : token.is "\x7b" = false := is_eq_false_of_is his htext
  refine ⟨[token], rfl, levels_singleton hlevel, fun hbrace _ _ _ ↦ ?_⟩
  rw [extend_cons_of_suffix hbrace]
  exact reads_expect_iff.mpr ⟨rfl, his⟩

theorem expectName {context : String} :
    seam.Holds anywhere (expectName context) (expectName context) scope tokens := by
  intro hspelled token rest hread
  obtain ⟨rfl, hname⟩ := reads_expectName_iff.mp hread
  have hlevel := not_brace_of_name (hspelled token List.mem_cons_self) hname
  refine ⟨[token], rfl, levels_singleton hlevel, fun hbrace _ _ _ ↦ ?_⟩
  rw [extend_cons_of_suffix hbrace]
  exact reads_expectName_iff.mpr ⟨rfl, hname⟩

theorem accept {text : String} (htext : text ∈ sought) (hne : text ≠ "\x7b") :
    seam.Holds anywhere (accept text) (accept text) scope tokens := by
  intro _ accepted rest hread
  rcases reads_accept_iff.mp hread with ⟨rfl, token, rfl, his⟩ | ⟨rfl, hnot, rfl⟩
  · have hlevel : token.is "\x7b" = false := is_eq_false_of_is his hne
    refine ⟨[token], rfl, levels_singleton hlevel, fun hbrace _ _ _ ↦ ?_⟩
    rw [extend_cons_of_suffix hbrace]
    exact reads_accept_iff.mpr (.inl ⟨rfl, token, rfl, his⟩)
  · refine ⟨[], rfl, Nat.le_refl 0, fun _ _ _ _ ↦ reads_accept_iff.mpr (.inr ⟨rfl, ?_, rfl⟩)⟩
    rwa [stands_extend (List.forall_mem_singleton.mpr htext)]

/-- A word or symbol that is taken if it is there. -/
theorem accept_bind_of_stands {text : String} {next next' : Bool → Reader α}
    (hstands : stands [text] (seam.extend tokens) = stands [text] tokens) (hne : text ≠ "\x7b")
    (htrue : ∀ token back, tokens = token :: back → token.is text = true →
      seam.Holds follow (next true) (next' true) scope back)
    (hfalse : stands [text] tokens = false →
      seam.Holds follow (next false) (next' false) scope tokens) :
    seam.Holds follow (Reader.accept text >>= next) (Reader.accept text >>= next') scope
      tokens := by
  intro hspelled a rest hread
  obtain ⟨accepted, mid, haccept, hnext⟩ := reads_bind_iff.mp hread
  rcases reads_accept_iff.mp haccept with ⟨rfl, token, rfl, his⟩ | ⟨rfl, hnot, rfl⟩
  · have hmid := (List.forall_mem_cons.mp hspelled).2
    have hlevel : token.is "\x7b" = false := is_eq_false_of_is his hne
    obtain ⟨taken, rfl, hlevels, hextend⟩ := htrue token mid rfl his hmid hnext
    refine ⟨token :: taken, rfl, (levels_singleton hlevel).append hlevels, ?_⟩
    intro hbrace hfollow htells scope'
    rw [extend_cons_of_suffix (hbrace.trans (List.suffix_append taken rest)),
      reads_accept_bind_iff_of_is his]
    exact hextend hbrace hfollow (htells.of_bind haccept).2 scope'
  · obtain ⟨taken, htokens, hlevels, hextend⟩ := hfalse hnot hspelled hnext
    refine ⟨taken, htokens, hlevels, fun hbrace hfollow htells scope' ↦ ?_⟩
    rw [reads_accept_bind_iff_of_not_stands (hstands.trans hnot)]
    exact hextend hbrace hfollow (htells.of_bind haccept).2 scope'

theorem accept_bind {text : String} {next next' : Bool → Reader α} (htext : text ∈ sought)
    (hne : text ≠ "\x7b")
    (htrue : ∀ token back, tokens = token :: back → token.is text = true →
      seam.Holds follow (next true) (next' true) scope back)
    (hfalse : stands [text] tokens = false →
      seam.Holds follow (next false) (next' false) scope tokens) :
    seam.Holds follow (Reader.accept text >>= next) (Reader.accept text >>= next') scope tokens :=
  accept_bind_of_stands (stands_extend (List.forall_mem_singleton.mpr htext) tokens) hne htrue
    hfalse

theorem group {bracket : Bracket} (hopens : stands [bracket.opener] tokens = true) :
    seam.Holds anywhere (group bracket) (group bracket) scope tokens := by
  intro hspelled inner rest hread
  obtain ⟨taken, rfl, hlevels, hagain⟩ := levels_of_reads_group hspelled hopens hread
  refine ⟨taken, rfl, hlevels, fun hbrace _ _ _ ↦ ?_⟩
  rw [extend_append taken hbrace]
  exact hagain _ _

theorem inMember {member : String}
    (h : ∀ scope, seam.Holds follow read read' scope tokens) :
    seam.Holds follow (inMember member read) (inMember member read') scope tokens :=
  fun hspelled _ _ ⟨hresult, hrest⟩ ↦
    have ⟨taken, htokens, hlevels, hextend⟩ := h _ hspelled ⟨hresult, hrest⟩
    ⟨taken, htokens, hlevels, fun hbrace hfollow htells _ ↦
      have ⟨hresult, hrest⟩ := hextend hbrace hfollow htells _
      ⟨hresult, hrest⟩⟩

/-! ### Repetition -/

section Repetition

variable {after : List Token → Prop} {part : Turn α → List Token → Prop}

/-- The last turn has to hold the seam where the repetition stops, and each one before it where the
others are read. -/
theorem repeatFrom {turn turn' : Nat → Reader (Turn α)} {number : Nat}
    (h : ∀ number tokens, seam.Holds part (turn number) (turn' number) scope tokens)
    (hlast : ∀ result rest, [seam.brace] <:+ rest → after rest → part result rest)
    (hmore : ∀ number a mid items rest, Reads (repeatFrom turn number) scope mid items rest →
      rest <:+ mid → [seam.brace] <:+ rest → after rest → part (.more a) mid) :
    seam.Holds (fun _ ↦ after) (repeatFrom turn number) (repeatFrom turn' number) scope tokens := by
  intro hspelled items rest hread
  induction hread using Reads.repeatFrom_induction with
  | stop hturn =>
    obtain ⟨taken, htokens, hlevels, hextend⟩ := h _ _ hspelled hturn
    refine ⟨taken, htokens, hlevels, fun hbrace hafter htells scope' ↦ ?_⟩
    exact (hextend hbrace (hlast _ _ hbrace hafter) (htells.of_repeatFrom_last hturn (by simp))
      scope').repeatFrom_stop
  | last hturn =>
    obtain ⟨taken, htokens, hlevels, hextend⟩ := h _ _ hspelled hturn
    refine ⟨taken, htokens, hlevels, fun hbrace hafter htells scope' ↦ ?_⟩
    exact (hextend hbrace (hlast _ _ hbrace hafter) (htells.of_repeatFrom_last hturn (by simp))
      scope').repeatFrom_last
  | @more _ _ a _ _ hturn hlt hothers ih =>
    -- The turn stops where the others begin, and has to hold the seam there.
    obtain ⟨front, rfl, hfront, hextend⟩ := h _ _ hspelled hturn
    obtain ⟨back, rfl, hback, hextend'⟩ :=
      ih fun token htoken ↦ hspelled token (List.mem_append_right front htoken)
    refine ⟨front ++ back, (List.append_assoc ..).symm, hfront.append hback, ?_⟩
    intro hbrace hafter htells scope'
    obtain ⟨htells, htells'⟩ := htells.of_repeatFrom hturn hlt
    have hsuffix := List.suffix_append back rest
    have hpart := hmore _ a _ _ _ hothers hsuffix hbrace hafter
    have hturn := hextend (hbrace.trans hsuffix) hpart htells scope'
    rw [extend_append front (hbrace.trans hsuffix)] at hturn ⊢
    refine hturn.repeatFrom_more ?_ (hextend' hbrace hafter htells' scope')
    simp only [List.length_append] at hlt ⊢
    omega
  | stuck hturn hstuck =>
    obtain ⟨taken, rfl, hlevels, hextend⟩ := h _ _ hspelled hturn
    refine ⟨taken, rfl, hlevels, fun hbrace hafter htells scope' ↦ ?_⟩
    have htells := htells.of_repeatFrom_last hturn fun _ _ ↦ hstuck
    have hturn := hextend hbrace (hlast _ _ hbrace hafter) htells scope'
    rw [extend_append taken hbrace] at hturn ⊢
    refine hturn.repeatFrom_stuck ?_
    simp only [List.length_append] at hstuck ⊢
    omega

theorem repeated {turn turn' : Reader (Turn α)}
    (h : ∀ tokens, seam.Holds part turn turn' scope tokens)
    (hlast : ∀ result rest, [seam.brace] <:+ rest → after rest → part result rest)
    (hmore : ∀ number a mid items rest,
      Reads (Reader.repeatFrom (fun _ ↦ turn) number) scope mid items rest → rest <:+ mid →
      [seam.brace] <:+ rest → after rest → part (.more a) mid) :
    seam.Holds (fun _ ↦ after) (repeated turn) (repeated turn') scope tokens :=
  repeatFrom (fun _ ↦ h) hlast hmore

/-- Between items stand commas, and after the last one what is left in the end. -/
theorem separated {item item' : Reader α}
    (h : ∀ tokens, seam.Holds (fun _ ↦ after) item item' scope tokens)
    (hcomma : ∀ token tokens, token.is "," = true → after (token :: tokens)) :
    seam.Holds (fun _ ↦ after) (separated item) (separated item') scope tokens := by
  have hturn (tokens : List Token) : seam.Holds (fun _ ↦ after)
      (do if ← Reader.accept "," then return Turn.more (← item) else return Turn.stop)
      (do if ← Reader.accept "," then return Turn.more (← item') else return Turn.stop) scope
      tokens := by
    refine .bind (.accept (by decide) (by decide)) fun accepted mid ↦ ?_
    exact .ite Iff.rfl (fun _ ↦ .bind_pure (h mid)) fun _ ↦ .pure
  have hbefore {mid rest : List Token} (hmid : stands [","] mid = true ∨ mid = rest)
      (hafter : after rest) : after mid := by
    rcases hmid with hstands | rfl
    · obtain ⟨token, back, rfl, his⟩ := stands_singleton_eq_true_iff.mp hstands
      exact hcomma token back his
    · exact hafter
  refine .bind_of (h tokens) (fun first mid ↦ .bind_pure (.repeated hturn ?_ ?_)) ?_
  · exact fun _ _ _ hafter ↦ hafter
  · exact fun number _ mid items rest hread _ _ hafter ↦
      hbefore (stands_or_eq_of_reads_turns hread) hafter
  · intro first mid items rest _ hread _ _ hafter
    obtain ⟨others, mid', hothers, hpure⟩ := reads_bind_iff.mp hread
    obtain ⟨-, rfl⟩ := reads_pure_iff.mp hpure
    exact hbefore (stands_or_eq_of_reads_turns hothers) hafter

end Repetition

theorem collectUntil {stop : List Token → Bool}
    (hstop : ∀ tokens, stop (seam.extend tokens) = stop tokens) :
    seam.Holds anywhere (collectUntil stop) (collectUntil stop) scope tokens := by
  refine .bind_pure (.repeated (fun tokens ↦ .ahead_bind ?_) (fun _ _ _ _ ↦ trivial)
    fun _ _ _ _ _ _ _ _ _ ↦ trivial)
  refine .ite (by rw [hstop]) (fun _ ↦ .pure) fun _ ↦ ?_
  rcases tokens with _ | ⟨token, tokens⟩
  · exact .fail
  by_cases hbrace : token :: tokens = [seam.brace]
  · obtain ⟨rfl, rfl⟩ := List.cons.inj hbrace
    refine .of_brace fun a rest hread ↦ ?_
    have hfind : [Bracket.round, .square, .curly].find? (seam.brace.is ·.opener) = none := by
      refine List.find?_eq_none.mpr fun bracket _ his ↦ ?_
      have hnot := is_eq_false_of_is his (Bracket.opener_ne_closer bracket .curly)
      rw [Bracket.closer, seam.brace_is] at hnot
      cases hnot
    simp only [hfind, reads_skip_bind_iff, reads_pure_iff] at hread
    exact hread.2.symm
  · rw [extend_cons hbrace]
    dsimp only
    split
    · next bracket hfind =>
      have hopens : stands [bracket.opener] (token :: tokens) = true := by
        simpa using List.find?_some hfind
      exact .bind_pure (.group hopens)
    · next hfind =>
      have hlevel : token.is "\x7b" = false := by
        simpa [Bracket.opener] using List.find?_eq_none.mp hfind .curly (by decide)
      exact .skip_bind (fun _ ↦ hlevel) .pure

end Holds

end Seam

end TestDouble
