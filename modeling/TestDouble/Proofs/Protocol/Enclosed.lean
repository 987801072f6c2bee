import TestDouble.Proofs.Protocol.Brace
import TestDouble.Proofs.Protocol.Joined
import TestDouble.Proofs.Token.Group

/-!
# Groups in braces

Where brackets are paired, braces match. So a group that begins with a brace ends at the matching
brace, if there is a group at all: other brackets can be in disorder where the braces are not.
-/

namespace TestDouble

open Token

/-- What stands between two tokens that open and close as many braces is enclosed by them. -/
theorem Within.enclose {opener closer : Token} {inner : List Token} (hinner : Balanced inner)
    (hlevel : inner.countP (·.is "\x7b") = inner.countP (·.is "\x7d"))
    (hopener : opener.is "\x7d" = false) (hcloser : closer.is "\x7b" = false)
    (hpair : opener.is "\x7b" = closer.is "\x7d") :
    Balanced (opener :: (inner ++ [closer])) ∧
      (opener :: (inner ++ [closer])).countP (·.is "\x7b") =
        (opener :: (inner ++ [closer])).countP (·.is "\x7d") := by
  have hcount : [closer].countP (·.is "\x7d") = [opener].countP (·.is "\x7b") := by
    rw [List.countP_singleton, List.countP_singleton, hpair]
  have hback : Within ([opener].countP (·.is "\x7b")) (inner ++ [closer]) := by
    intro front hfront
    rcases List.prefix_concat_iff.mp hfront with rfl | hpart
    · rw [List.countP_append, List.countP_append]
      omega
    · have hfront := hinner front hpart
      omega
  have hopens : [opener].countP (·.is "\x7d") = 0 := by simp [hopener]
  have hcloses : [closer].countP (·.is "\x7b") = 0 := by simp [hcloser]
  refine ⟨hback.cons (by omega), ?_⟩
  rw [← List.singleton_append, List.countP_append, List.countP_append, List.countP_append,
    List.countP_append]
  omega

namespace Closes

variable {inner inner' rest rest' : List Token} {opener closer closer' : Token}

/-- There is one brace that matches the one in front. -/
theorem eq_of_append (h : Closes 0 inner closer) (h' : Closes 0 inner' closer')
    (heq : inner ++ closer :: rest = inner' ++ closer' :: rest') :
    inner = inner' ∧ closer = closer' ∧ rest = rest' := by
  have hlength : inner.length + 1 = inner'.length + 1 := by
    rw [← h.braceExtent_eq rest, heq, h'.braceExtent_eq rest']
  obtain ⟨rfl, hback⟩ := List.append_inj heq (Nat.succ.inj hlength)
  obtain ⟨rfl, rfl⟩ := List.cons.inj hback
  exact ⟨rfl, rfl, rfl⟩

end Closes

namespace Bracket

variable {outermost bracket : Bracket} {token opener closer : Token}
  {tokens inner inner' rest rest' : List Token}

theorem Opens.is_opener (h : Opens outermost bracket token) : token.is bracket.opener = true := by
  simp [Token.is, h.not_string, h.text_eq]

theorem Closes.is_closer (h : Closes outermost bracket token) :
    token.is bracket.closer = true := by
  simp [Token.is, h.not_string, h.text_eq]

theorem spelled_openBrace : Spelled .punctuation "\x7b".toList := by decide +kernel

/-- Braces are such in every group. -/
theorem marks_of_is {text : String} (hspelled : Spelled token.kind token.text.toList)
    (his : token.is text = true) (htext : Spelled .punctuation text.toList) :
    Marks outermost .curly text token := by
  have hkind := kind_of_is hspelled his htext
  exact ⟨by simp [hkind], by simp [hkind], by simp, text_eq_of_is his⟩

theorem Plain.not_brace (h : Plain outermost token)
    (hspelled : Spelled token.kind token.text.toList) :
    token.is "\x7b" = false ∧ token.is "\x7d" = false := by
  obtain ⟨hopens, hcloses⟩ := h .curly
  constructor
  · exact Bool.eq_false_iff.mpr fun his ↦ hopens (marks_of_is hspelled his spelled_openBrace)
  · exact Bool.eq_false_iff.mpr fun his ↦
      hcloses (marks_of_is hspelled his Excerpt.spelled_closeBrace)

theorem isGroup_iff (hopener : Opens bracket bracket opener) :
    IsGroup bracket (opener :: (inner ++ [closer])) ↔
      Paired bracket inner ∧ Closes bracket bracket closer := by
  constructor
  · intro h
    generalize hgroup : opener :: (inner ++ [closer]) = group at h
    cases h with
    | intro _ hinner hcloser =>
      obtain ⟨-, hback⟩ := List.cons.inj hgroup
      obtain ⟨rfl, hlast⟩ := List.append_inj' hback rfl
      obtain ⟨rfl, -⟩ := List.cons.inj hlast
      exact ⟨hinner, hcloser⟩
  · exact fun ⟨hinner, hcloser⟩ ↦ .intro hopener hinner hcloser

/-- Where brackets are paired, so are braces. -/
theorem Paired.balanced (h : Paired outermost tokens)
    (hspelled : ∀ token ∈ tokens, Spelled token.kind token.text.toList) :
    Balanced tokens ∧ tokens.countP (·.is "\x7b") = tokens.countP (·.is "\x7d") := by
  induction h with
  | nil => simp [Within]
  | @plain token tokens hplain _ ih =>
    obtain ⟨hfirst, hspelled⟩ := List.forall_mem_cons.mp hspelled
    obtain ⟨hopen, hclose⟩ := hplain.not_brace hfirst
    obtain ⟨hbalanced, hlevel⟩ := ih hspelled
    refine ⟨hbalanced.cons (by simp [hopen, hclose]), ?_⟩
    rwa [List.countP_cons_of_neg (by simp [hopen]), List.countP_cons_of_neg (by simp [hclose])]
  | @group bracket opener closer inner tokens hopens _ hcloses _ ih ih' =>
    obtain ⟨hinner, hlevel⟩ := ih fun token htoken ↦ hspelled token (by simp [htoken])
    obtain ⟨hothers, hlevel'⟩ := ih' fun token htoken ↦ hspelled token (by simp [htoken])
    -- The partners are both braces, or neither of them is one.
    have hpair : opener.is "\x7b" = closer.is "\x7d" := by
      by_cases hcurly : bracket = .curly
      · subst hcurly
        exact hopens.is_opener.trans hcloses.is_closer.symm
      · have hopen : opener.is "\x7b" = false := is_eq_false_of_is hopens.is_opener fun heq ↦
          hcurly (@opener_injective bracket .curly heq)
        have hclose : closer.is "\x7d" = false := is_eq_false_of_is hcloses.is_closer fun heq ↦
          hcurly (@closer_injective bracket .curly heq)
        rw [hopen, hclose]
    obtain ⟨hgroup, hlevel''⟩ := hinner.enclose hlevel
      (is_eq_false_of_is hopens.is_opener (opener_ne_closer bracket .curly))
      (is_eq_false_of_is hcloses.is_closer (opener_ne_closer .curly bracket).symm) hpair
    have happend :
        opener :: (inner ++ closer :: tokens) = opener :: (inner ++ [closer]) ++ tokens := by simp
    rw [happend]
    refine ⟨hgroup.append hlevel'' hothers, ?_⟩
    rw [List.countP_append, List.countP_append, hlevel'', hlevel']

/-- A group that begins with a brace ends at the matching brace. -/
theorem close_eq_closed_iff (hopener : Opens .curly .curly opener)
    (hbody : TestDouble.Closes 0 inner closer)
    (hspelled : ∀ token ∈ inner ++ closer :: rest, Spelled token.kind token.text.toList) :
    curly.close (inner ++ closer :: rest) = .closed inner' rest' ↔
      IsGroup .curly (opener :: (inner ++ [closer])) ∧ inner' = inner ∧ rest' = rest := by
  rw [close_eq_iff, ends_closed_iff, isGroup_iff hopener]
  constructor
  · rintro ⟨closer', heq, hpaired, hcloser'⟩
    have hinner' : ∀ token ∈ inner', Spelled token.kind token.text.toList := fun token htoken ↦
      hspelled token (heq ▸ List.mem_append_left _ htoken)
    obtain ⟨hbalanced, hlevel⟩ := hpaired.balanced hinner'
    -- The end of the group matches the brace in front as well, and one brace only does.
    have hbody' : TestDouble.Closes 0 inner' closer' :=
      ⟨hcloser'.is_closer, hbalanced, by rw [Nat.zero_add, hlevel]⟩
    obtain ⟨rfl, rfl, rfl⟩ := hbody.eq_of_append hbody' heq
    exact ⟨⟨hpaired, hcloser'⟩, rfl, rfl⟩
  · rintro ⟨⟨hpaired, hcloser⟩, rfl, rfl⟩
    exact ⟨closer, rfl, hpaired, hcloser⟩

end Bracket

end TestDouble
