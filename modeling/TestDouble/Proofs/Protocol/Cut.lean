import TestDouble.Proofs.Outcome.Answers
import TestDouble.Proofs.Token.Tail

/-!
# How an excerpt is cut out

An excerpt is a part of the tokens of its text: its keyword, what the walk back from the keyword
passes over, and what counting braces finds to belong to the declaration behind the keyword.
-/

namespace TestDouble.Excerpt

open Token

/-- The excerpt is cut out around the keyword, which stands between the tokens. -/
structure CutFrom (finish : Finish) (excerpt : Excerpt) (earlier : List Token) (keyword : Token)
    (later : List Token) : Prop where
  items_eq : excerpt.items = (earlier.take (leadExtent earlier)).reverse
    ++ keyword :: later.take (declarationExtent later)
  name_eq : declaredName? keyword later = some excerpt.name
  line_eq : excerpt.line = keyword.line
  finish_eq : excerpt.finish = finish

private theorem exists_cutFrom_of_mem {finish : Finish} {before tokens : List Token}
    {excerpt : Excerpt} (hmem : excerpt ∈ locateFrom finish before tokens) :
    ∃ earlier keyword later, before.reverse ++ tokens = earlier.reverse ++ keyword :: later ∧
      CutFrom finish excerpt earlier keyword later := by
  fun_induction locateFrom finish before tokens with
  | case1 => cases hmem
  | case2 before token tokens name hname n lead declaration ih =>
    rcases List.mem_cons.mp hmem with rfl | hmem
    · exact ⟨before, token, tokens, rfl, rfl, hname, rfl, rfl⟩
    · obtain ⟨earlier, keyword, later, heq, hcut⟩ := ih hmem
      refine ⟨earlier, keyword, later, ?_, hcut⟩
      rw [← heq]
      simp [declaration]
  | case3 before token tokens hname ih =>
    obtain ⟨earlier, keyword, later, heq, hcut⟩ := ih hmem
    exact ⟨earlier, keyword, later, by rw [← heq]; simp, hcut⟩

namespace CutFrom

variable {finish : Finish} {excerpt : Excerpt} {earlier later : List Token} {keyword : Token}

theorem is_keyword (h : CutFrom finish excerpt earlier keyword later) :
    keyword.is "protocol" = true := by
  by_contra his
  have hname := h.name_eq
  rw [declaredName?, if_neg his] at hname
  cases hname

theorem items_isInfix (h : CutFrom finish excerpt earlier keyword later) :
    excerpt.items <:+: earlier.reverse ++ keyword :: later := by
  refine ⟨(earlier.drop (leadExtent earlier)).reverse, later.drop (declarationExtent later), ?_⟩
  have hearlier : (earlier.drop (leadExtent earlier)).reverse ++
      (earlier.take (leadExtent earlier)).reverse = earlier.reverse := by
    rw [← List.reverse_append, List.take_append_drop]
  rw [h.items_eq, ← List.append_assoc, hearlier, List.append_assoc, List.cons_append,
    List.take_append_drop]

end CutFrom

section

variable {text : String} {excerpts : List Excerpt} {excerpt : Excerpt}

/-- Every excerpt of a text is cut out around a keyword of that text. -/
theorem exists_cutFrom_of_ofText (h : ofText text = .ok excerpts) (hmem : excerpt ∈ excerpts) :
    ∃ tokens earlier keyword later, Tokens.scan text = .ok tokens ∧
      tokens.items = earlier.reverse ++ keyword :: later ∧
      CutFrom tokens.finish excerpt earlier keyword later := by
  obtain ⟨tokens, hscan, rfl⟩ := Except.map_eq_ok_iff.mp h
  obtain ⟨earlier, keyword, later, hsplit, hcut⟩ := exists_cutFrom_of_mem hmem
  exact ⟨tokens, earlier, keyword, later, hscan, hsplit, hcut⟩

/-- An excerpt is a part of the tokens of its text. -/
theorem exists_infix_of_mem (h : ofText text = .ok excerpts) (hmem : excerpt ∈ excerpts) :
    ∃ tokens, Tokens.scan text = .ok tokens ∧ excerpt.items <:+: tokens.items := by
  obtain ⟨tokens, earlier, keyword, later, hscan, hsplit, hcut⟩ := exists_cutFrom_of_ofText h hmem
  exact ⟨tokens, hscan, hsplit ▸ hcut.items_isInfix⟩

theorem spelled_of_mem_items (h : ofText text = .ok excerpts) (hmem : excerpt ∈ excerpts) :
    ∀ token ∈ excerpt.items, Spelled token.kind token.text.toList := by
  obtain ⟨tokens, hscan, hpart⟩ := exists_infix_of_mem h hmem
  exact fun token htoken ↦ spelled_of_mem hscan token (hpart.subset htoken)

end

end TestDouble.Excerpt
