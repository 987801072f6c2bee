import TestDouble.Proofs.Protocol.Locate
import TestDouble.Proofs.SwiftType.Rules
import TestDouble.Proofs.Token.Tail
import TestDouble.Protocol.Read

/-!
# The name of a located protocol

A protocol is located by walking back from its keyword over attributes, access levels and the
arguments of attributes, and it is read by taking the same words from the front. The reading can go
wrong in what the walk took for an argument, but where it goes right it arrives at the keyword, and
so the protocol has the name under which it was located.
-/

namespace TestDouble

open Reader Token

/-! ## Tokens by their text -/

theorem spelled_protocol : Spelled .keyword "protocol".toList := by decide +kernel

/-- A number is no parenthesis. -/
theorem rise_of_number {token : Token} (hspelled : Spelled token.kind token.text.toList)
    (hnumber : token.kind = .number) : rise [token] = 0 := by
  refine rise_other (fun hopen ↦ ?_) fun hclose ↦ ?_
  · cases hnumber.symm.trans (kind_of_is hspelled hopen spelled_openRound)
  · cases hnumber.symm.trans (kind_of_is hspelled hclose spelled_closeRound)

/-! ## What stands before the keyword -/

/-- Attributes, access levels and the arguments of attributes. -/
inductive Leads : List Token → Prop
  | nil : Leads []
  | word {token : Token} {rest : List Token} :
      token.kind = .attribute ∨ token.text ∈ accessLevels → Leads rest → Leads (token :: rest)
  | group {token opener closer : Token} {inner rest : List Token} : token.kind = .attribute →
      opener.is "(" = true → closer.is ")" = true → RisesTo 0 inner.reverse → Leads rest →
      Leads (token :: opener :: inner ++ closer :: rest)

theorem Leads.append {front back : List Token} (hfront : Leads front) (hback : Leads back) :
    Leads (front ++ back) := by
  induction hfront with
  | nil => exact hback
  | word hword _ ih => exact .word hword ih
  | @group token opener closer inner rest hattribute hopen hclose hinner _ ih =>
    rw [List.append_assoc]
    exact .group hattribute hopen hclose hinner ih

theorem leads_of_leadExtent (earlier : List Token) :
    Leads (earlier.take (Excerpt.leadExtent earlier)).reverse := by
  fun_induction Excerpt.leadExtent earlier with
  | case1 => exact .nil
  | case2 token earlier hword ih =>
    rw [List.take_succ_cons, List.reverse_cons]
    exact ih.append (.word hword .nil)
  | case3 token earlier hword hclose n hn hattribute ih =>
    obtain ⟨inner, opener, before, rfl, rfl, hopen, hinner⟩ :=
      openerExtent_eq_some (Int.le_refl 0) rfl hn
    rw [List.getElem?_append_right (by omega), Nat.add_sub_cancel_left, List.getElem?_cons_succ]
      at hattribute
    -- The attribute stands in front of the group, and the walk goes on in front of the attribute.
    rcases before with _ | ⟨first, before⟩
    · simp at hattribute
    · have hdrop : (inner ++ opener :: first :: before).drop (inner.length + 1 + 1) = before := by
        rw [Nat.add_assoc, List.drop_length_add_append]
        rfl
      rw [hdrop] at ih ⊢
      have hkind : first.kind = .attribute := by simpa using hattribute
      have hgroup : Leads (first :: opener :: inner.reverse ++ [token]) :=
        .group hkind hopen hclose (by rwa [List.reverse_reverse]) .nil
      have htake : (token :: (inner ++ opener :: first :: before)).take
          (Excerpt.leadExtent before + (inner.length + 1) + 2) =
          token :: (inner ++ opener :: first :: before.take (Excerpt.leadExtent before)) := by
        have hcount : Excerpt.leadExtent before + (inner.length + 1) + 2
            = inner.length + (Excerpt.leadExtent before + 2) + 1 := by omega
        rw [hcount, List.take_succ_cons, List.take_length_add_append, List.take_succ_cons,
          List.take_succ_cons]
      rw [htake]
      simpa using ih.append hgroup
  | case4 | case5 | case6 => exact .nil

/-! ## Reading it -/

section Reading

variable {scope : Scope} {token : Token} {tokens mid : List Token} {turn : Turn Lead}

theorem reads_turn_attribute_iff (hattribute : token.kind = .attribute) :
    Reads Lead.turn scope (token :: tokens) turn mid ↔
      ∃ text, Reads (adjoinedGroup .round) scope tokens text mid ∧
        turn = .more (.attributed (token.text ++ text)) := by
  simp only [Lead.turn, reads_ahead_bind_iff, hattribute, if_true, readAttribute]
  rw [reads_bind_iff]
  simp only [reads_next?_bind_iff, Bool.false_and, Bool.false_eq_true, if_false]
  simp only [reads_bind_iff, reads_pure_iff, List.head?_cons, Option.map_some, Option.getD_some,
    List.tail_cons]
  constructor
  · rintro ⟨_, _, ⟨text, _, htext, rfl, rfl⟩, rfl, rfl⟩
    exact ⟨text, htext, rfl⟩
  · rintro ⟨text, htext, rfl⟩
    exact ⟨_, _, ⟨text, _, htext, rfl, rfl⟩, rfl, rfl⟩

private theorem reads_turn_access (hattribute : token.kind ≠ .attribute)
    (haccess : token.text ∈ accessLevels) (hround : stands ["("] tokens = false) :
    Reads Lead.turn scope (token :: tokens) (.more (.modifier token.text)) tokens := by
  simp only [Lead.turn, reads_ahead_bind_iff, if_neg hattribute, if_pos haccess,
    reads_skip_bind_iff, hround, Bool.false_and, Bool.false_eq_true, if_false, reads_pure_iff,
    List.tail_cons, and_self]

/-- A word that stands alone is read in one turn. -/
private theorem exists_reads_turn (hword : token.kind = .attribute ∨ token.text ∈ accessLevels)
    (hround : stands ["("] tokens = false) :
    ∃ lead, Reads Lead.turn scope (token :: tokens) (.more lead) tokens := by
  by_cases hattribute : token.kind = .attribute
  · have hgroup : Reads (adjoinedGroup .round) scope tokens "" tokens :=
      reads_adjoinedGroup_iff.mpr (.inr ⟨adjoins_of_not_stands hround, rfl, rfl⟩)
    exact ⟨_, (reads_turn_attribute_iff hattribute).mpr ⟨"", hgroup, rfl⟩⟩
  · exact ⟨_, reads_turn_access hattribute (hword.resolve_left hattribute) hround⟩

theorem reads_turn_stop (hattribute : token.kind ≠ .attribute)
    (hword : token.text ∉ accessLevels ++ idleModifiers ++ staticModifiers) :
    Reads Lead.turn scope (token :: tokens) .stop (token :: tokens) := by
  simp only [List.mem_append, not_or] at hword
  obtain ⟨⟨haccess, hidle⟩, hstatic⟩ := hword
  simp only [Lead.turn, reads_ahead_bind_iff, if_neg hattribute, if_neg haccess, hidle, hstatic,
    false_and, or_self, if_false, reads_pure_iff, and_self]

theorem text_eq_of_is {text : String} (h : token.is text = true) : token.text = text := by
  rw [Token.is, Bool.and_eq_true, decide_eq_true_eq, decide_eq_true_eq] at h
  exact h.2

variable {keyword : Token} {rest : List Token}

/-- No bracket follows a word that stands alone. -/
theorem Leads.not_stands_round (h : Leads tokens) (hkeyword : keyword.is "protocol" = true)
    (hspelled : ∀ token ∈ tokens, Spelled token.kind token.text.toList) :
    stands ["("] (tokens ++ keyword :: rest) = false := by
  have hword : ∀ token : Token, Spelled token.kind token.text.toList →
      token.kind = .attribute ∨ token.text ∈ accessLevels → token.is "(" = false := by
    intro token hspelled hword
    by_contra his
    rw [Bool.not_eq_false] at his
    rcases hword with hattribute | haccess
    · rw [kind_of_is hspelled his spelled_openRound] at hattribute
      cases hattribute
    · rw [text_eq_of_is his] at haccess
      exact absurd haccess (by decide)
  cases h with
  | nil =>
    have hnot : keyword.is "(" = false := is_eq_false_of_is hkeyword (by decide)
    simp [stands, hnot]
  | word h => simp [stands, hword _ (hspelled _ List.mem_cons_self) h]
  | group h => simp [stands, hword _ (hspelled _ List.mem_cons_self) (.inl h)]

/-- An attribute takes the group that its line goes on with. -/
private theorem rest_of_reads_turn {opener closer : Token} {inner : List Token}
    (hattribute : token.kind = .attribute) (hclose : closer.is ")" = true)
    (hinner : RisesTo 0 inner.reverse)
    (hnumber : ∀ t ∈ inner ++ closer :: rest, t.kind = .number → rise [t] = 0)
    (hadjoins : adjoins Bracket.round.opener (opener :: (inner ++ closer :: rest)) = true)
    (h : Reads Lead.turn scope (token :: opener :: (inner ++ closer :: rest)) turn mid) :
    mid = rest ∧ ∃ lead, turn = .more lead := by
  obtain ⟨text, htext, rfl⟩ := (reads_turn_attribute_iff hattribute).mp h
  rcases reads_adjoinedGroup_iff.mp htext with ⟨-, inner', hclosed, -⟩ | ⟨hnot, -⟩
  · exact ⟨(Bracket.close_round_eq hinner hclose hnumber hclosed).2, _, rfl⟩
  · exact absurd hadjoins (by rw [hnot]; decide)

/-- Where all the words before the keyword are read, the keyword is next. Otherwise the reading
stops at the bracket of an argument on a line of its own. -/
theorem Leads.reads (h : Leads tokens) (hkeyword : keyword.is "protocol" = true)
    (hspelled : ∀ token ∈ tokens ++ keyword :: rest, Spelled token.kind token.text.toList)
    {number : Nat} {leads : List Lead}
    (hread : Reads (repeatFrom (fun _ ↦ Lead.turn) number) scope (tokens ++ keyword :: rest) leads
      mid) : mid = keyword :: rest ∨ stands ["("] mid = true := by
  induction h generalizing number leads with
  | nil =>
    have hkind : keyword.kind ≠ .attribute := by
      rw [kind_of_is (hspelled _ List.mem_cons_self) hkeyword spelled_protocol]
      decide
    have hstop : Reads Lead.turn scope (keyword :: rest) .stop (keyword :: rest) :=
      reads_turn_stop hkind (by rw [text_eq_of_is hkeyword]; decide)
    obtain ⟨-, rfl⟩ := hread.value_unique hstop.repeatFrom_stop
    exact .inl rfl
  | @word token lead hword hlead ih =>
    obtain ⟨hfirst, hspelled⟩ := List.forall_mem_cons.mp hspelled
    have hround : stands ["("] (lead ++ keyword :: rest) = false :=
      hlead.not_stands_round hkeyword fun t ht ↦ hspelled t (List.mem_append_left _ ht)
    obtain ⟨_, hturn⟩ := exists_reads_turn hword hround
    obtain ⟨others, -, hothers⟩ := hturn.of_repeatFrom_more (by simp) hread
    exact ih hspelled hothers
  | @group token opener closer inner lead hattribute hopen hclose hinner hlead ih =>
    rw [List.append_assoc, List.cons_append, List.cons_append, List.cons_append] at hread hspelled
    set group := inner ++ closer :: (lead ++ keyword :: rest) with hgroup
    obtain ⟨-, hopener, hspelled⟩ :=
      (List.forall_mem_cons.mp hspelled).imp_right List.forall_mem_cons.mp
    have hnumber : ∀ t ∈ group, t.kind = .number → rise [t] = 0 := fun t ht ↦
      rise_of_number (hspelled t ht)
    -- The search for the front of the declaration takes a group from any line, the reading of an
    -- attribute takes it only from its own line.
    by_cases hadjoins : adjoins Bracket.round.opener (opener :: group) = true
    · have hturn {turn : Turn Lead} {mid : List Token}
          (h : Reads Lead.turn scope (token :: opener :: group) turn mid) :
          mid = lead ++ keyword :: rest ∧ ∃ word, turn = .more word :=
        rest_of_reads_turn hattribute hclose hinner hnumber hadjoins h
      rcases reads_repeatFrom_iff.mp hread with
        ⟨h, -⟩ | ⟨_, h, -⟩ | ⟨_, _, others, h, -, hothers, -⟩ | ⟨_, h, hstuck, -⟩
      · cases (hturn h).2.choose_spec
      · cases (hturn h).2.choose_spec
      · obtain ⟨rfl, -⟩ := hturn h
        exact ih (fun t ht ↦ hspelled t (by simp [hgroup, ht])) hothers
      · obtain ⟨rfl, -⟩ := hturn h
        exact absurd (by simp [hgroup]; omega) hstuck
    · have hturn : Reads Lead.turn scope _ _ _ := (reads_turn_attribute_iff hattribute).mpr
        ⟨"", reads_adjoinedGroup_iff.mpr (.inr ⟨by simpa using hadjoins, rfl, rfl⟩), rfl⟩
      obtain ⟨others, -, hothers⟩ := hturn.of_repeatFrom_more (by simp) hread
      have hkind : opener.kind ≠ .attribute := by
        rw [kind_of_is hopener hopen spelled_openRound]
        decide
      have hstop : Reads Lead.turn scope (opener :: group) .stop (opener :: group) :=
        reads_turn_stop hkind (by rw [text_eq_of_is hopen]; decide)
      obtain ⟨-, rfl⟩ := hothers.value_unique hstop.repeatFrom_stop
      exact .inr (by simp [stands, hopen])

/-- A protocol has the name after the keyword that follows the words in front. -/
theorem reads_declaration {line : Nat} {protocol : Protocol}
    (h : Reads (Protocol.readDeclaration line) scope tokens protocol mid) :
    ∃ leads keyword token rest, Reads Lead.read scope tokens leads (keyword :: token :: rest) ∧
      keyword.is "protocol" = true ∧ protocol.name = token.text := by
  simp only [Protocol.readDeclaration, reads_bind_iff, reads_expect_iff, reads_expectName_iff] at h
  obtain ⟨leads, _, hleads, keyword, _, ⟨rfl, his⟩, token, rest, ⟨rfl, -⟩, h⟩ := h
  refine ⟨leads, keyword, token, rest, hleads, his, ?_⟩
  obtain ⟨_, _, -, _, _, -, _, _, -, h⟩ := h
  rcases reads_ite_iff.mp h with ⟨-, h⟩ | ⟨-, h⟩
  on_goal 1 => obtain ⟨_, _, -, h⟩ := reads_bind_iff.mp h
  all_goals
    simp only [reads_bind_iff, reads_pure_iff] at h
    obtain ⟨_, _, -, _, _, -, _, _, -, _, _, -, rfl, -⟩ := h
    rfl

/-- A protocol is read under the name by which it is located. -/
theorem name_eq_of_reads {name : String} {line : Nat} {protocol : Protocol}
    (h : Leads tokens) (hname : Excerpt.declaredName? keyword rest = some name)
    (hspelled : ∀ token ∈ tokens ++ keyword :: rest, Spelled token.kind token.text.toList)
    (hread : Reads (Protocol.readDeclaration line) scope (tokens ++ keyword :: rest) protocol mid) :
    protocol.name = name := by
  have hkeyword : keyword.is "protocol" = true := by
    by_contra his
    rw [Excerpt.declaredName?, if_neg his] at hname
    cases hname
  rw [Excerpt.declaredName?, if_pos hkeyword, Option.map_eq_some_iff] at hname
  obtain ⟨first, hfirst, rfl⟩ := hname
  obtain ⟨leads, keyword', token, left, hleads, his, hprotocol⟩ := reads_declaration hread
  rcases h.reads hkeyword hspelled hleads with heq | hround
  · obtain ⟨rfl, rfl⟩ := List.cons.inj heq
    rw [List.head?_cons, Option.filter_eq_some_iff, Option.some.injEq] at hfirst
    rw [hprotocol, hfirst.1]
  · have hnot : keyword'.is "(" = false := is_eq_false_of_is his (by decide)
    simp [stands, hnot] at hround

end Reading

end TestDouble
