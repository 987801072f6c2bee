import TestDouble.Proofs.Protocol.Nesting
import TestDouble.Proofs.SwiftType.RoundTrip
import TestDouble.Proofs.Token.Group
import TestDouble.Proofs.Token.Spacing

/-!
# Recovering values from texts

A value is recovered from a text if the text is scanned as tokens from which a reader gives the
value. What follows the tokens matters twice: in the text, where it must not go on with the last
token, and for the reader, which must not go on with it. With both left open, texts of values in a
row are put together as the readers of these values are.

Types are recovered from what declares them, and groups from what is kept of them.
-/

namespace TestDouble

open Reader Token
open SwiftType (Avoids EndsType Tame)

/-! ## Texts from which a value is recovered -/

/-- The text is spelled by the tokens, and from these the reader gives the value, unless what
follows goes on with them. No brace is left open in them, and none is closed twice. -/
structure Reader.Recovers {α : Type} (read : Reader α) (stops : List Token → Prop) (text : String)
    (a : α) (tokens : List Token) : Prop where
  spells : ∀ tail, EndsWord tail → Spells tail text.toList tokens
  reads : ∀ scope after, stops after → Reads read scope (tokens ++ after) a after
  nests : ∀ opened, Nests (· ≠ .curly) opened tokens opened

/-- Where a reader takes no brace without its partner, neither do the tokens it takes. -/
theorem Reader.Recovers.of_shifts {α : Type} {read : Reader α} {stops : List Token → Prop}
    {text : String} {a : α} {tokens : List Token}
    (hspells : ∀ tail, EndsWord tail → Spells tail text.toList tokens)
    (hreads : ∀ scope after, stops after → Reads read scope (tokens ++ after) a after)
    (hstops : stops []) (hshifts : ∀ opened scope tokens,
      Shifts (· ≠ Bracket.curly) opened opened read scope tokens) :
    Recovers read stops text a tokens where
  spells := hspells
  reads := hreads
  nests opened := by
    have hread := hreads ⟨⟨1, false⟩, {}⟩ [] hstops
    rw [List.append_nil] at hread
    obtain ⟨taken, htaken, hnests⟩ := hshifts opened _ _ (hspells [] nofun).spelled hread
    rw [htaken, List.append_nil]
    exact hnests

namespace Reader.Recovers

variable {α β : Type} {read : Reader α} {next : α → Reader β} {stops stops' : List Token → Prop}
  {text text' : String} {a : α} {b : β} {tokens tokens' : List Token}

/-- Texts in a row, where neither is gone on with by what follows it. -/
theorem bind (h : Recovers read stops text a tokens)
    (hnext : Recovers (next a) stops' text' b tokens')
    (hends : ∀ tail, EndsWord tail → EndsWord (text'.toList ++ tail))
    (hstops : ∀ after, stops' after → stops (tokens' ++ after)) :
    Recovers (read >>= next) stops' (text ++ text') b (tokens ++ tokens') where
  spells tail htail := by
    rw [String.toList_append]
    exact (h.spells _ (hends tail htail)).append (hnext.spells tail htail)
  reads scope after hafter := by
    rw [List.append_assoc]
    exact (h.reads scope _ (hstops after hafter)).bind_iff.mpr (hnext.reads scope after hafter)
  nests opened := (h.nests opened).append (hnext.nests opened)

theorem bind_pure {f : α → β} (h : Recovers read stops text a tokens) :
    Recovers (read >>= fun a ↦ pure (f a)) stops text (f a) tokens where
  spells := h.spells
  reads scope after hafter :=
    (h.reads scope after hafter).bind_iff.mpr .pure
  nests := h.nests

theorem sees_bind {mark : String} {next : Bool → Reader β}
    (h : Recovers (next true) stops text b tokens)
    (hstands : ∀ after, stands [mark] (tokens ++ after) = true) :
    Recovers (sees mark >>= next) stops text b tokens where
  spells := h.spells
  reads scope after hafter := by
    rw [reads_sees_bind_iff, hstands]
    exact h.reads scope after hafter
  nests := h.nests

end Reader.Recovers

theorem SwiftType.Restored.recovers {type : SwiftType} {tokens : List Token}
    (h : type.Restored tokens) :
    Recovers SwiftType.read EndsType type.declared type tokens := by
  refine .of_shifts h.spells (fun scope after hafter ↦ ?_) ⟨nofun, nofun⟩ fun _ _ _ ↦ .swiftType
  have hlength : tokens.length ≤ (tokens ++ after).length := by
    rw [List.length_append]
    exact Nat.le_add_right _ _
  exact reads_read_iff.mpr (h.reads_within hlength scope hafter)

/-! ## Groups -/

namespace Bracket

variable {outermost bracket : Bracket} {token opener closer : Token} {tokens inner : List Token}

@[simp] theorem marks_unbroken_iff {symbol : String} :
    Marks outermost bracket symbol token.unbroken ↔ Marks outermost bracket symbol token :=
  ⟨fun h ↦ ⟨h.not_string, h.not_number, h.nests, h.text_eq⟩,
    fun h ↦ ⟨h.not_string, h.not_number, h.nests, h.text_eq⟩⟩

theorem Paired.map_unbroken (h : Paired outermost tokens) :
    Paired outermost (tokens.map Token.unbroken) := by
  induction h with
  | nil => exact .nil
  | plain hplain _ ih =>
    refine .plain (fun bracket ↦ ?_) ih
    exact (hplain bracket).imp (mt marks_unbroken_iff.mp) (mt marks_unbroken_iff.mp)
  | group hopener _ hcloser _ ihinner ih =>
    rw [List.map_cons, List.map_append, List.map_cons]
    exact .group (marks_unbroken_iff.mpr hopener) ihinner (marks_unbroken_iff.mpr hcloser) ih

theorem close_eq_closed {rest : List Token} (hinner : Paired bracket inner)
    (hcloser : Closes bracket bracket closer) :
    bracket.close (inner ++ closer :: rest) = .closed inner rest :=
  close_eq_iff.mpr (ends_closed_iff.mpr ⟨closer, rfl, hinner, hcloser⟩)

end Bracket

namespace Token

private theorem joinAfter_concat {closer : String} (h : closer ∈ clingsBack) (previous : String)
    (texts : List String) :
    joinAfter previous (texts ++ [closer]) = joinAfter previous texts ++ closer := by
  induction texts generalizing previous with
  | nil => simp [joinAfter_cling h, joinAfter]
  | cons text texts ih => simp [joinAfter, ih, String.append_assoc]

/-- Brackets that cling to what is inside stand around it without spaces. -/
theorem join_group {opener closer : Token} (inner : List Token)
    (hopener : opener.text ∈ clingsForward) (hcloser : closer.text ∈ clingsBack) :
    join (opener :: (inner ++ [closer])) = opener.text ++ join inner ++ closer.text := by
  rw [join, List.map_cons, List.map_append, joinTexts, List.map_singleton, joinAfter_concat hcloser,
    joinAfter_opener hopener, String.append_assoc, join]

end Token

section Group

variable {bracket : Bracket} {opener closer : Token} {inner : List Token}

private theorem clings_of_ne_curly (h : bracket ≠ .curly) :
    bracket.opener ∈ clingsForward ∧ bracket.closer ∈ clingsBack := by
  cases bracket <;> first | contradiction | decide

private theorem abuts_closer (hcurly : bracket ≠ .curly)
    (hspelled : Spelled closer.kind closer.text.toList) (htext : closer.text = bracket.closer)
    (tail : List Char) : Abuts closer.kind closer.text.toList tail := by
  have hmark : Spelled .punctuation bracket.closer.toList := by
    cases bracket <;> decide +kernel
  rw [htext] at hspelled ⊢
  rw [hspelled.kind_eq hmark]
  cases bracket <;> first | contradiction | exact abuts_closedMark (by decide) (by decide)

/-- A group is recovered from its text if none of its tokens touch that must not. -/
theorem recovers_group (hcurly : bracket ≠ .curly)
    (hspelled : ∀ token ∈ opener :: (inner ++ [closer]), Spelled token.kind token.text.toList)
    (hapart : Apart (opener :: (inner ++ [closer]))) (hopener : opener.is bracket.opener = true)
    (hinner : Bracket.Paired bracket inner) (hcloser : Bracket.Closes bracket bracket closer) :
    Recovers (adjoinedGroup bracket) (Avoids [bracket.opener])
      (bracket.opener ++ Token.join inner ++ bracket.closer)
      (bracket.opener ++ Token.join inner ++ bracket.closer)
      ((opener :: (inner ++ [closer])).map unbroken) := by
  refine .of_shifts (fun tail htail ↦ ?_) (fun scope after _ ↦ ?_) nofun
    fun _ _ _ ↦ .adjoinedGroup
  · have hjoin : Token.join (opener :: (inner ++ [closer])) =
        bracket.opener ++ Token.join inner ++ bracket.closer := by
      obtain ⟨hforward, hback⟩ := clings_of_ne_curly hcurly
      rw [← text_eq_of_is hopener] at hforward ⊢
      rw [← hcloser.text_eq] at hback ⊢
      exact join_group inner hforward hback
    rw [← hjoin]
    refine spells_joinTexts_of_abuts hspelled hapart htail fun last hlast ↦ ?_
    rw [← List.cons_append, List.getLast?_concat] at hlast
    obtain rfl := Option.some.inj hlast
    exact abuts_closer hcurly (hspelled _ (by simp)) hcloser.text_eq tail
  · have hadjoins : adjoins bracket.opener
        ((opener :: (inner ++ [closer])).map unbroken ++ after) = true := by
      have his : opener.unbroken.is bracket.opener = true := hopener
      simp [adjoins, his]
      rfl
    refine reads_adjoinedGroup_iff.mpr (.inl ⟨hadjoins, inner.map unbroken, ?_, ?_⟩)
    · rw [List.map_cons, List.cons_append, List.tail_cons, List.map_append, List.append_assoc]
      exact Bracket.close_eq_closed hinner.map_unbroken (Bracket.marks_unbroken_iff.mpr hcloser)
    · simp

private theorem recovers_no_group :
    Recovers (adjoinedGroup bracket) (Avoids [bracket.opener]) "" "" [] :=
  .of_shifts (fun _ _ ↦ .nil) (fun _ _ hafter ↦ reads_adjoinedGroup_iff.mpr
    (.inr ⟨hafter.adjoins_eq_false List.mem_cons_self, rfl, rfl⟩)) nofun fun _ _ _ ↦ .adjoinedGroup

end Group

/-- The text of a group that may be missing. -/
structure RecoversGroup (bracket : Bracket) (text : String) (tokens : List Token) : Prop extends
    Recovers (adjoinedGroup bracket) (Avoids [bracket.opener]) text text tokens where
  endsWord : ∀ tail, EndsWord tail → EndsWord (text.toList ++ tail)

theorem keeps_adjoinedGroup {whole : List Token}
    (hspelled : ∀ token ∈ whole, Spelled token.kind token.text.toList) (hapart : Apart whole)
    {bracket : Bracket} (hcurly : bracket ≠ .curly) (scope : Scope) (tokens : List Token) :
    Keeps whole (fun text ↦ ∃ item, RecoversGroup bracket text item) (adjoinedGroup bracket) scope
      tokens := by
  intro text rest hread
  rcases SwiftType.exists_of_reads_adjoinedGroup hread with
    ⟨-, rfl, rfl⟩ | ⟨opener, inner, closer, rfl, hopener, -, hclose, rfl⟩
  · exact ⟨[], rfl, fun _ ↦ ⟨[], recovers_no_group, fun tail htail ↦ htail⟩⟩
  · obtain ⟨closer', heq, hinner, hcloser⟩ :=
      Bracket.ends_closed_iff.mp (Bracket.close_eq_iff.mp hclose)
    obtain ⟨-, hlast⟩ := List.append_inj' heq rfl
    obtain ⟨rfl, -⟩ := List.cons.inj hlast
    refine ⟨opener :: (inner ++ [closer]), by simp, fun hpart ↦ ?_⟩
    have hspelled := fun token htoken ↦ hspelled token (hpart.subset htoken)
    have hgroup := recovers_group hcurly hspelled (hapart.of_isInfix hpart) hopener hinner hcloser
    refine ⟨_, hgroup, fun tail _ ↦ ?_⟩
    rw [String.toList_append, String.toList_append]
    cases bracket <;> (rintro _ ⟨⟩; decide +kernel)

/-! ## Types -/

theorem SwiftType.keeps_read {whole : List Token}
    (hspelled : ∀ token ∈ whole, Spelled token.kind token.text.toList) (htame : Tame whole)
    (scope : Scope) (tokens : List Token) : Keeps whole
      (fun type ↦ ∃ item, Recovers SwiftType.read EndsType type.declared type item)
      SwiftType.read scope tokens := by
  intro type rest hread
  obtain ⟨consumed, htokens, hgood⟩ :=
    keeps_readWithin htame hspelled _ scope tokens (reads_read_iff.mp hread)
  exact ⟨consumed, htokens, fun hpart ↦ (hgood hpart).imp fun _ hitem ↦ hitem.recovers⟩

end TestDouble
