import TestDouble.Proofs.Protocol.Alike
import TestDouble.Proofs.Protocol.Lead
import TestDouble.Proofs.Token.Lines

/-!
# Texts that declare many protocols

Where texts that declare one protocol each are joined by line breaks, the protocols located in the
whole are those of the texts, in their order. Each has moved: its lines are others, and its first
word is on a fresh line. It is read all the same.
-/

namespace TestDouble

open Reader

/-! ## Moved tokens -/

/-- Tokens that differ in their lines only, apart from the first, which may also begin a line. -/
inductive Token.Moved : List Token → List Token → Prop
  | intro {first first' : Token} {others others' : List Token} :
      first.AlikeFirst anyLines first' → List.Forall₂ (Token.Alike anyLines) others others' →
      Moved (first :: others) (first' :: others')

namespace Token

theorem Moved.shift {tokens tokens' : List Token} (h : Moved tokens tokens') (count : Nat) :
    Moved tokens (tokens'.map (Token.shift count)) := by
  cases h with
  | intro hfirst hothers =>
    cases hfirst with
    | intro kind text freshLine freshLine' _ =>
      refine .intro (.intro kind text freshLine freshLine' trivial) ?_
      rw [List.forall₂_map_right_iff]
      refine hothers.imp fun token token' htoken ↦ ?_
      cases htoken
      exact .intro _ _ _ trivial

private theorem moved_freshen {tokens : List Token} (hne : tokens ≠ []) :
    Moved tokens (freshen tokens) := by
  cases tokens with
  | nil => exact absurd rfl hne
  | cons token tokens =>
    exact .intro (.intro _ _ _ _ trivial) (List.forall₂_same.mpr fun _ _ ↦ .intro _ _ _ trivial)

theorem moved_self {tokens : List Token} (hne : tokens ≠ []) : Moved tokens tokens := by
  cases tokens with
  | nil => exact absurd rfl hne
  | cons token tokens =>
    exact .intro (.intro _ _ _ _ trivial) (List.forall₂_same.mpr fun _ _ ↦ .intro _ _ _ trivial)

theorem Moved.sameWord {tokens tokens' : List Token} (h : Moved tokens tokens') :
    List.Forall₂ SameWord tokens tokens' := by
  cases h with
  | intro hfirst hothers =>
    refine .cons ?_ (hothers.imp fun token token' htoken ↦ ?_)
    · cases hfirst
      exact ⟨rfl, rfl⟩
    · cases htoken
      exact ⟨rfl, rfl⟩

/-- A text is scanned alike wherever it begins. -/
theorem exists_moved {cs : List Char} {tokens : Tokens} (h : scanFrom 1 false cs = .ok tokens)
    (hne : tokens.items ≠ []) (line : Nat) (fresh : Bool) :
    ∃ tokens', scanFrom (line + 1) fresh cs = .ok tokens' ∧ Moved tokens.items tokens'.items := by
  rw [Nat.add_comm]
  cases fresh with
  | false => exact ⟨_, scanFrom_shift line h, (moved_self hne).shift line⟩
  | true => exact ⟨_, scanFrom_shift line (scanFrom_fresh h hne), (moved_freshen hne).shift line⟩

end Token

/-! ## Moved declarations -/

namespace Excerpt

/-- Excerpts of which the second is the first one, moved. -/
inductive Moved : Excerpt → Excerpt → Prop
  | intro (name : String) (line line' : Nat) (finish finish' : Finish) {items items' : List Token} :
      Token.Moved items items' → Moved ⟨name, line, items, finish⟩ ⟨name, line', items', finish'⟩

/-- A moved declaration is read alike. -/
theorem Moved.read {excerpt excerpt' : Excerpt} (h : excerpt.Moved excerpt') :
    ResultAlike anyLines (Protocol.Alike anyLines) excerpt.read.result excerpt'.read.result := by
  obtain ⟨name, line, line', finish, finish', ⟨hfirst, hothers⟩⟩ := h
  exact Protocol.readDeclaration_alikeFirst ⟨rfl, trivial⟩ hfirst trivial hothers

/-- The text is nothing but the declaration in the excerpt, which ends with it. -/
def DelimitedText (text : String) (excerpt : Excerpt) : Prop :=
  ∃ tokens, Tokens.scan text = .ok tokens ∧ Delimited tokens excerpt

theorem DelimitedText.unique {text : String} {excerpt excerpt' : Excerpt}
    (h : DelimitedText text excerpt) (h' : DelimitedText text excerpt') : excerpt = excerpt' := by
  obtain ⟨tokens, hscan, hdelimited⟩ := h
  obtain ⟨tokens', hscan', hdelimited'⟩ := h'
  obtain rfl := Except.ok.inj (hscan.symm.trans hscan')
  exact (List.cons.inj (hdelimited.located.symm.trans hdelimited'.located)).1

theorem DelimitedText.ofText_eq {text : String} {excerpt : Excerpt}
    (h : DelimitedText text excerpt) : ofText text = .ok [excerpt] := by
  obtain ⟨tokens, hscan, hdelimited⟩ := h
  rw [ofText, hscan, ← hdelimited.located]
  rfl

theorem spelled_closeBrace : Token.Spelled .punctuation "\x7d".toList := by decide +kernel

/-- Nothing before a closing brace belongs to the next declaration. -/
theorem leadExtent_closeBrace {token : Token}
    (hspelled : Token.Spelled token.kind token.text.toList) (his : token.is "\x7d" = true)
    (before : List Token) : leadExtent (token :: before) = 0 := by
  have hkind : token.kind ≠ .attribute := by
    rw [Token.kind_of_is hspelled his spelled_closeBrace]
    decide
  rw [leadExtent, if_neg, if_neg]
  · rw [is_eq_false_of_is his (by decide)]
    exact Bool.false_ne_true
  · rw [text_eq_of_is his]
    exact not_or_intro hkind (by decide)

private theorem exists_append_of_forall₂ {α β : Type} {R : α → β → Prop} {front back : List α}
    {items : List β} (h : List.Forall₂ R (front ++ back) items) : ∃ front' back',
      items = front' ++ back' ∧ List.Forall₂ R front front' ∧ List.Forall₂ R back back' := by
  refine ⟨_, _, (List.take_append_drop front.length items).symm, ?_, ?_⟩
  · simpa using List.forall₂_take front.length h
  · simpa using List.forall₂_drop front.length h

/-- A declaration is located wherever it stands, and what follows is looked at afresh. -/
theorem Delimited.locateFrom_append {tokens : Tokens} {excerpt : Excerpt} {items : List Token}
    (h : Delimited tokens excerpt)
    (hspelled : ∀ token ∈ tokens.items, Token.Spelled token.kind token.text.toList)
    (hmoved : Token.Moved tokens.items items) {before : List Token}
    (hbefore : leadExtent before = 0) (finish : Finish) (more : List Token) :
    ∃ excerpt', excerpt.Moved excerpt' ∧ leadExtent (items.reverse ++ before) = 0 ∧
      locateFrom finish before (items ++ more) =
        excerpt' :: locateFrom finish (items.reverse ++ before) more := by
  have hsame := hmoved.sameWord
  obtain ⟨lead, keyword, rest, hitems, hline, henclosed⟩ := h.exists_enclosed
  obtain ⟨last, hlast, hbrace⟩ := h.last_brace
  -- The last token is a brace, over which no words of a declaration reach back.
  have hclose : leadExtent (items.reverse ++ before) = 0 := by
    obtain ⟨front, hfront⟩ := List.getLast?_eq_some_iff.mp hlast
    have hreverse := List.rel_reverse hsame
    rw [hfront, List.reverse_append] at hreverse
    obtain ⟨last', front', hlast', -, hitems'⟩ := List.forall₂_cons_left_iff.mp hreverse
    rw [hitems']
    have hspelled := hspelled last (by simp [hfront])
    rw [hlast'.kind_eq, hlast'.text_eq] at hspelled
    exact leadExtent_closeBrace hspelled (by rwa [← hlast'.is_eq]) _
  obtain ⟨name, line, own, finish₀⟩ := excerpt
  obtain rfl : own = tokens.items := h.items_eq
  rw [hitems] at hsame
  obtain ⟨lead', back, rfl, hlead, hback⟩ := exists_append_of_forall₂ hsame
  obtain ⟨keyword', rest', hkeyword, hrest, rfl⟩ := List.forall₂_cons_left_iff.mp hback
  refine ⟨_, .intro name line keyword'.line finish₀ finish hmoved, hclose, ?_⟩
  exact (henclosed.of_sameWord hlead hkeyword hrest).locateFrom_append hbefore finish more

/-! ## Joined texts -/

/-- Texts with a line break between any two. -/
def joined (texts : List String) : String :=
  String.intercalate "\n" texts

theorem toList_joined_cons_cons (text next : String) (texts : List String) :
    (joined (text :: next :: texts)).toList =
      text.toList ++ '\n' :: (joined (next :: texts)).toList := by
  rw [joined, String.intercalate_cons_cons, String.toList_append, String.toList_append,
    List.append_assoc]
  rfl

theorem Delimited.items_ne_nil {tokens : Tokens} {excerpt : Excerpt}
    (h : Delimited tokens excerpt) : tokens.items ≠ [] := by
  obtain ⟨last, hlast, -⟩ := h.last_brace
  rintro hnil
  rw [hnil] at hlast
  cases hlast

/-- The texts are scanned, and their declarations located, one after the other. -/
theorem exists_scanFrom_joined {texts : List String} {excerpts : List Excerpt}
    (h : List.Forall₂ DelimitedText texts excerpts) (line : Nat) (fresh : Bool) :
    ∃ tokens, Token.scanFrom (line + 1) fresh (joined texts).toList = .ok tokens ∧
      ∀ finish before, leadExtent before = 0 →
        List.Forall₂ Moved excerpts (locateFrom finish before tokens.items) := by
  induction h generalizing line fresh with
  | nil =>
    refine ⟨⟨[], ⟨line + 1, fresh⟩⟩, ?_, fun finish before _ ↦ ?_⟩
    · rw [joined, String.intercalate_nil, String.toList_empty, Token.scanFrom]
    · rw [locateFrom]
      exact .nil
  | @cons text excerpt texts excerpts htext htexts ih =>
    obtain ⟨tokens, hscan, hdelimited⟩ := htext
    have hspelled := Token.spelled_of_mem hscan
    obtain ⟨moved, hmoved, hitems⟩ :=
      Token.exists_moved hscan (Delimited.items_ne_nil hdelimited) line fresh
    -- The line feed between two texts ends the last token of the first one.
    cases htexts with
    | nil =>
      refine ⟨moved, hmoved, fun finish before hbefore ↦ ?_⟩
      obtain ⟨excerpt', hexcerpt, -, hlocate⟩ :=
        hdelimited.locateFrom_append hspelled hitems hbefore finish []
      rw [List.append_nil] at hlocate
      rw [hlocate, locateFrom]
      exact .cons hexcerpt .nil
    | @cons next _ texts _ hnext htexts =>
      obtain ⟨later, hlater, hlocated⟩ := ih moved.finish.line true
      refine ⟨{ later with items := moved.items ++ later.items }, ?_,
        fun finish before hbefore ↦ ?_⟩
      · rw [toList_joined_cons_cons, Token.scanFrom_append_lineFeed hmoved, hlater]
        rfl
      · obtain ⟨excerpt', hexcerpt, hclose, hlocate⟩ :=
          hdelimited.locateFrom_append hspelled hitems hbefore finish later.items
        rw [hlocate]
        exact .cons hexcerpt (hlocated finish _ hclose)

/-- The protocols declared in joined texts are those of the texts, moved. -/
theorem exists_ofText_joined {texts : List String} {excerpts : List Excerpt}
    (h : List.Forall₂ DelimitedText texts excerpts) :
    ∃ located, ofText (joined texts) = .ok located ∧ List.Forall₂ Moved excerpts located := by
  obtain ⟨tokens, hscan, hlocated⟩ := exists_scanFrom_joined h 0 false
  refine ⟨locate tokens, ?_, hlocated _ _ ?_⟩
  · rw [ofText, Tokens.scan, hscan]
    rfl
  · rw [leadExtent]

/-! ## Names -/

/-- A protocol is read under the name by which it is located. -/
theorem DelimitedText.name_eq {text : String} {excerpt : Excerpt} {protocol : Protocol}
    (h : DelimitedText text excerpt) (hread : excerpt.read.result = .ok protocol) :
    protocol.name = excerpt.name := by
  obtain ⟨tokens, hscan, hdelimited⟩ := h
  obtain ⟨lead, keyword, rest, hitems, -, henclosed⟩ := hdelimited.exists_enclosed
  have hlead := leads_of_leadExtent lead.reverse
  rw [henclosed.lead_eq, List.take_of_length_le (by simp), List.reverse_reverse] at hlead
  rw [Excerpt.read, hdelimited.items_eq, hitems] at hread
  refine name_eq_of_reads hlead henclosed.declaredName_eq (fun token htoken ↦ ?_) ⟨hread, rfl⟩
  exact Token.spelled_of_mem hscan token (by rwa [hitems])

end Excerpt

end TestDouble
