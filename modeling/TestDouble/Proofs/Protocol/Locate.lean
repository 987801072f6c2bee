import Mathlib.Data.List.Forall2
import Mathlib.Data.List.TakeWhile
import TestDouble.Proofs.Token.Round

/-!
# Locating protocols in a longer text

A text that is nothing but one protocol declaration stays one when it is put into a longer text: the
walk back from its keyword stops at the brace that closes the declaration before it, and the count
of braces ends at the brace that closes its own body. The second half needs that this brace is
there, since the count takes everything that is left where a brace is never closed.
-/

namespace TestDouble

/-- Tokens that are read the same way where neither lines nor line breaks matter. -/
structure Token.SameWord (token token' : Token) : Prop where
  kind_eq : token.kind = token'.kind
  text_eq : token.text = token'.text

theorem Token.SameWord.is_eq {token token' : Token} (h : token.SameWord token') (text : String) :
    token.is text = token'.is text := by
  rw [Token.is, Token.is, h.kind_eq, h.text_eq]

namespace Excerpt

variable {tokens tokens' : List Token}

/-! ## Before the keyword -/

theorem openerExtent_append {depth n : Nat} {earlier : List Token}
    (h : openerExtent depth earlier = some n) (before : List Token) :
    openerExtent depth (earlier ++ before) = some n := by
  fun_induction openerExtent depth earlier generalizing n with
  | case1 => simp at h
  | case2 depth token earlier hclose ih =>
    obtain ⟨k, hk, rfl⟩ := Option.map_eq_some_iff.mp h
    simp [openerExtent, hclose, ih hk]
  | case3 depth token earlier hclose hopen hdepth =>
    simpa [openerExtent, hclose, hopen, hdepth] using h
  | case4 depth token earlier hclose hopen hdepth ih =>
    obtain ⟨k, hk, rfl⟩ := Option.map_eq_some_iff.mp h
    simp [openerExtent, hclose, hopen, hdepth, ih hk]
  | case5 depth token earlier hclose hopen ih =>
    obtain ⟨k, hk, rfl⟩ := Option.map_eq_some_iff.mp h
    simp [openerExtent, hclose, hopen, ih hk]

private theorem lt_length_of_any {n : Nat} {p : Token → Bool}
    (h : (tokens[n]?).any p = true) : n < tokens.length := by
  by_contra hle
  rw [List.getElem?_eq_none (by omega)] at h
  simp at h

private theorem leadExtent_le (earlier : List Token) : leadExtent earlier ≤ earlier.length := by
  fun_induction leadExtent earlier with
  | case1 => exact Nat.le_refl 0
  | case2 token earlier _ ih => exact Nat.succ_le_succ ih
  | case3 token earlier _ _ n _ hattribute ih =>
    have := lt_length_of_any hattribute
    rw [List.length_drop] at ih
    simp only [List.length_cons]
    omega
  | case4 | case5 | case6 => exact Nat.zero_le _

/-- Tokens that all belong to a declaration do so whatever stands before them. -/
theorem leadExtent_append {lead : List Token} (h : leadExtent lead = lead.length)
    (before : List Token) : leadExtent (lead ++ before) = lead.length + leadExtent before := by
  fun_induction leadExtent lead with
  | case1 => simp
  | case2 token earlier hword ih =>
    rw [List.length_cons] at h ⊢
    rw [List.cons_append, leadExtent, if_pos hword, ih (by omega)]
    omega
  | case3 token earlier hword hclose n hn hattribute ih =>
    have hlt := lt_length_of_any hattribute
    rw [List.length_cons] at h ⊢
    rw [List.length_drop] at ih
    rw [List.cons_append, leadExtent, if_neg hword, if_pos hclose, openerExtent_append hn]
    simp only [List.getElem?_append_left hlt, if_pos hattribute]
    rw [List.drop_append_of_le_length hlt, ih (by omega)]
    omega
  | case4 | case5 | case6 => simp at h

/-! ## After the keyword -/

/-- A count of braces that ends where all are closed ends there whatever follows. -/
theorem braceExtent_append {depth : Nat} {body : List Token} (hdepth : 0 < depth)
    (hextent : braceExtent depth body = body.length)
    (hclosed : depth + body.countP (·.is "\x7b") = body.countP (·.is "\x7d"))
    (more : List Token) : braceExtent depth (body ++ more) = body.length := by
  induction body generalizing depth with
  | nil =>
    simp at hclosed
    omega
  | cons token body ih =>
    rw [braceExtent] at hextent
    rw [List.cons_append, braceExtent]
    rw [List.countP_cons, List.countP_cons] at hclosed
    rw [List.length_cons] at hextent ⊢
    by_cases hopen : token.is "\x7b" = true
    · have hclose : token.is "\x7d" = false := is_eq_false_of_is hopen (by decide)
      simp only [hopen, hclose, if_true, Bool.false_eq_true, if_false] at hextent hclosed ⊢
      rw [@ih (depth + 1) (by omega) (by omega) (by omega)]
    · by_cases hclose : token.is "\x7d" = true
      · simp only [hopen, hclose, if_true, Bool.false_eq_true, if_false] at hextent hclosed ⊢
        split_ifs at hextent ⊢ with hlast
        · omega
        · rw [ih (by omega) (by omega) (by omega)]
      · simp only [hopen, hclose, Bool.false_eq_true, if_false] at hextent hclosed ⊢
        rw [ih hdepth (by omega) (by omega)]

theorem drop_length_takeWhile {α : Type} (p : α → Bool) (items : List α) :
    items.drop (items.takeWhile p).length = items.dropWhile p := by
  calc items.drop (items.takeWhile p).length
      = (items.takeWhile p ++ items.dropWhile p).drop (items.takeWhile p).length := by
        rw [List.takeWhile_append_dropWhile]
    _ = items.dropWhile p := List.drop_left

theorem braceExtent_le (depth : Nat) (tokens : List Token) :
    braceExtent depth tokens ≤ tokens.length := by
  fun_induction braceExtent depth tokens with
  | case1 => exact Nat.le_refl 0
  | case2 _ _ _ _ ih | case4 _ _ _ _ _ _ ih | case5 _ _ _ _ _ ih => exact Nat.succ_le_succ ih
  | case3 => simp

private theorem declarationExtent_le (tokens : List Token) :
    declarationExtent tokens ≤ tokens.length := by
  have hheader := (List.takeWhile_prefix (!endsHeader ·) (l := tokens)).length_le
  have hbody := braceExtent_le 0 (tokens.drop (tokens.takeWhile (!endsHeader ·)).length)
  rw [List.length_drop] at hbody
  rw [declarationExtent]
  split_ifs <;> omega

/-- A header has no braces. -/
theorem countP_header {text : String} (htext : text = "\x7b" ∨ text = "\x7d")
    (tokens : List Token) : (tokens.takeWhile (!endsHeader ·)).countP (·.is text) = 0 := by
  rw [List.countP_eq_zero]
  intro token hmem his
  have hends := List.mem_takeWhile_imp hmem
  rcases htext with rfl | rfl <;> simp [endsHeader, his] at hends

theorem declarationExtent_append {tokens : List Token}
    (hextent : declarationExtent tokens = tokens.length)
    (hlast : ∃ token ∈ tokens.getLast?, token.is "\x7d" = true)
    (hclosed : tokens.countP (·.is "\x7b") = tokens.countP (·.is "\x7d")) (more : List Token) :
    declarationExtent (tokens ++ more) = tokens.length := by
  have hsplit := List.takeWhile_append_dropWhile (p := (!endsHeader ·)) (l := tokens)
  have hopened := countP_header (.inl rfl) tokens
  have hclosers := countP_header (.inr rfl) tokens
  rw [declarationExtent, drop_length_takeWhile] at hextent
  rw [declarationExtent, drop_length_takeWhile]
  generalize hheader : tokens.takeWhile (!endsHeader ·) = header at *
  generalize hbody : tokens.dropWhile (!endsHeader ·) = body at *
  -- A header that nothing ends has no closing brace in it, and the last token is one.
  cases body with
  | nil =>
    obtain ⟨token, hmem, his⟩ := hlast
    rw [List.append_nil] at hsplit
    have hends := List.mem_takeWhile_imp (hheader ▸ hsplit ▸ List.mem_of_getLast? hmem)
    simp [endsHeader, his] at hends
  | cons brace body =>
    have hends : endsHeader brace = true := by
      have hhead := List.head?_dropWhile_not (!endsHeader ·) tokens
      simpa [hbody] using hhead
    have hheader' : ∀ token ∈ header, (!endsHeader token) = true := by
      intro token hmem
      rw [← hheader] at hmem
      exact List.mem_takeWhile_imp (p := (!endsHeader ·)) hmem
    rw [← hsplit] at hextent hclosed ⊢
    rw [List.append_assoc, List.takeWhile_append_of_pos hheader',
      List.dropWhile_append_of_pos hheader', List.cons_append,
      List.takeWhile_cons_of_neg (by simp [hends]), List.dropWhile_cons_of_neg (by simp [hends])]
    rw [List.countP_append, List.countP_append, hopened, hclosers] at hclosed
    by_cases hopen : brace.is "\x7b" = true
    · have hclose : brace.is "\x7d" = false := is_eq_false_of_is hopen (by decide)
      simp only [List.head?_cons, Option.any_some, hopen, if_true, List.length_append,
        List.length_cons, List.append_nil, braceExtent] at hextent ⊢
      simp only [List.countP_cons, hopen, hclose, if_true, Bool.false_eq_true, if_false] at hclosed
      rw [@braceExtent_append (0 + 1) body (by omega) (by omega) (by omega)]
    · simp [hopen] at hextent

/-! ## Whole texts -/

/-- The tokens from the first one on that declares a protocol. -/
def fromKeyword : List Token → List Token
  | [] => []
  | token :: tokens =>
    if (declaredName? token tokens).isSome then token :: tokens else fromKeyword tokens

/-- Tokens that are nothing but one declaration, which ends with them. -/
structure Whole (tokens : Tokens) (excerpt : Excerpt) : Prop where
  located : locate tokens = [excerpt]
  items_eq : excerpt.items = tokens.items
  last_brace : ∃ token ∈ tokens.items.getLast?, token.is "\x7d" = true

/-- The last brace of a whole text closes the body. -/
structure Delimited (tokens : Tokens) (excerpt : Excerpt) : Prop extends Whole tokens excerpt where
  balanced : (fromKeyword tokens.items).countP (·.is "\x7b")
    = (fromKeyword tokens.items).countP (·.is "\x7d")

/-- Tokens that are the declaration of the named protocol wherever they stand. -/
structure Enclosed (name : String) (lead : List Token) (keyword : Token) (rest : List Token) :
    Prop where
  not_declared : ∀ front token back, lead = front ++ token :: back →
    declaredName? token (back ++ keyword :: rest) = none
  lead_eq : leadExtent lead.reverse = lead.length
  declaredName_eq : declaredName? keyword rest = some name
  extent_eq : ∀ more, declarationExtent (rest ++ more) = rest.length

theorem declaredName?_append {token : Token} {tokens : List Token} (hne : tokens ≠ [])
    (more : List Token) : declaredName? token (tokens ++ more) = declaredName? token tokens := by
  rw [declaredName?, declaredName?, List.head?_append_of_ne_nil _ hne]

private theorem ne_nil_of_declaredName? {token : Token} {tokens : List Token} {name : String}
    (h : declaredName? token tokens = some name) : tokens ≠ [] := by
  rintro rfl
  simp [declaredName?] at h

/-- Tokens that declare nothing are passed by. -/
theorem locateFrom_append {lead rest : List Token}
    (hlead : ∀ front token back, lead = front ++ token :: back →
      declaredName? token (back ++ rest) = none) (finish : Finish) (before : List Token) :
    locateFrom finish before (lead ++ rest) = locateFrom finish (lead.reverse ++ before) rest := by
  induction lead generalizing before with
  | nil => rfl
  | cons token lead ih =>
    have hnone := hlead [] token lead rfl
    rw [List.cons_append, locateFrom]
    simp only [hnone]
    rw [ih (fun front token' back h ↦ hlead (token :: front) token' back (by rw [h]; rfl)),
      List.reverse_cons, List.append_assoc, List.singleton_append]

theorem Enclosed.locateFrom_append {name : String} {lead rest : List Token} {keyword : Token}
    (h : Enclosed name lead keyword rest) {before : List Token} (hbefore : leadExtent before = 0)
    (finish : Finish) (more : List Token) :
    locateFrom finish before (lead ++ keyword :: rest ++ more) =
      ⟨name, keyword.line, lead ++ keyword :: rest, finish⟩ ::
        locateFrom finish ((lead ++ keyword :: rest).reverse ++ before) more := by
  have hrest : rest ≠ [] := ne_nil_of_declaredName? h.declaredName_eq
  have hname : declaredName? keyword (rest ++ more) = some name := by
    rw [declaredName?_append hrest, h.declaredName_eq]
  have hlead : leadExtent (lead.reverse ++ before) = lead.length := by
    rw [leadExtent_append (by rw [h.lead_eq, List.length_reverse]), hbefore, List.length_reverse,
      Nat.add_zero]
  rw [List.append_assoc, Excerpt.locateFrom_append ?_, List.cons_append, locateFrom]
  · simp only [hname, hlead, h.extent_eq]
    rw [List.take_left' (List.length_reverse), List.take_left, List.drop_left, List.reverse_reverse]
    simp
  · intro front token back hsplit
    rw [← List.append_assoc, declaredName?_append (by simp)]
    exact h.not_declared front token back hsplit

/-- Where a protocol is located, a first keyword declares one. -/
theorem exists_keyword {finish : Finish} {before items : List Token}
    (h : locateFrom finish before items ≠ []) :
    ∃ lead keyword rest name, items = lead ++ keyword :: rest ∧
      fromKeyword items = keyword :: rest ∧ declaredName? keyword rest = some name ∧
      ∀ front token back, lead = front ++ token :: back →
        declaredName? token (back ++ keyword :: rest) = none := by
  induction items generalizing before with
  | nil =>
    rw [locateFrom] at h
    exact absurd rfl h
  | cons token items ih =>
    rcases hname : declaredName? token items with _ | name
    · rw [locateFrom] at h
      simp only [hname] at h
      obtain ⟨lead, keyword, rest, name, rfl, hfrom, hkeyword, hlead⟩ := ih h
      refine ⟨token :: lead, keyword, rest, name, rfl, ?_, hkeyword, ?_⟩
      · rw [fromKeyword, hname]
        exact hfrom
      · rintro (_ | ⟨first, front⟩) token' back hsplit
        · obtain ⟨rfl, rfl⟩ := List.cons.inj hsplit
          exact hname
        · exact hlead front token' back (List.cons.inj hsplit).2
    · exact ⟨[], token, items, name, rfl, by rw [fromKeyword, hname]; rfl, hname, by simp⟩

/-- A whole text is enclosed wherever it stands. -/
theorem Delimited.exists_enclosed {tokens : Tokens} {excerpt : Excerpt}
    (h : Delimited tokens excerpt) : ∃ lead keyword rest, tokens.items = lead ++ keyword :: rest ∧
      excerpt.line = keyword.line ∧ Enclosed excerpt.name lead keyword rest := by
  obtain ⟨lead, keyword, rest, name, hitems, hfrom, hname, hlead⟩ :=
    @exists_keyword tokens.finish [] tokens.items
      (by rw [← locate, h.located]; simp)
  have hlocated := h.located
  rw [locate, hitems, locateFrom_append hlead, List.append_nil, locateFrom] at hlocated
  simp only [hname] at hlocated
  obtain ⟨rfl, -⟩ := List.cons.inj hlocated
  have hlength := congrArg List.length h.items_eq
  have hleadExtent := leadExtent_le lead.reverse
  simp only [hitems, List.length_append, List.length_reverse, List.length_take,
    List.length_cons] at hlength hleadExtent
  refine ⟨lead, keyword, rest, hitems, rfl, hlead, by omega, hname, ?_⟩
  have hkeyword : keyword.is "protocol" = true := by
    by_contra his
    rw [declaredName?, if_neg his] at hname
    cases hname
  have hopen : keyword.is "\x7b" = false := is_eq_false_of_is hkeyword (by decide)
  have hclose : keyword.is "\x7d" = false := is_eq_false_of_is hkeyword (by decide)
  have hbalanced := h.balanced
  simp only [hfrom, List.countP_cons, hopen, hclose, Bool.false_eq_true, if_false,
    Nat.add_zero] at hbalanced
  obtain ⟨last, hlast, hbrace⟩ := h.last_brace
  have hne : rest ≠ [] := ne_nil_of_declaredName? hname
  -- The declaration is closed by the last token, so what follows it is of no influence.
  refine declarationExtent_append ?_ ⟨last, ?_, hbrace⟩ hbalanced
  · have := declarationExtent_le rest
    omega
  · rwa [hitems, List.getLast?_append_of_ne_nil _ (by simp),
      List.getLast?_cons_of_ne_nil hne] at hlast

/-! ## Other lines -/

theorem openerExtent_eq_of_sameWord (depth : Nat)
    (h : List.Forall₂ Token.SameWord tokens tokens') :
    openerExtent depth tokens = openerExtent depth tokens' := by
  induction h generalizing depth with
  | nil => rfl
  | cons hhead _ ih => simp only [openerExtent, hhead.is_eq, ih]

theorem any_getElem?_eq_of_sameWord (n : Nat) (h : List.Forall₂ Token.SameWord tokens tokens') :
    (tokens[n]?).any (·.kind = .attribute) = (tokens'[n]?).any (·.kind = .attribute) := by
  induction h generalizing n with
  | nil => rfl
  | cons hhead _ ih =>
    cases n with
    | zero => simp [hhead.kind_eq]
    | succ n => simpa using ih n

theorem leadExtent_eq_of_sameWord (h : List.Forall₂ Token.SameWord tokens tokens') :
    leadExtent tokens = leadExtent tokens' := by
  induction hn : tokens.length using Nat.strongRecOn generalizing tokens tokens' with
  | ind n ih =>
  cases h with
  | nil => rfl
  | @cons token token' earlier earlier' hhead htail =>
    rw [List.length_cons] at hn
    rw [leadExtent, leadExtent, hhead.kind_eq, hhead.text_eq, hhead.is_eq,
      ih _ (by omega) htail rfl, openerExtent_eq_of_sameWord 1 htail]
    refine ite_congr rfl (fun _ ↦ rfl) fun _ ↦ ite_congr rfl (fun _ ↦ ?_) fun _ ↦ rfl
    split
    · next k _ =>
      rw [any_getElem?_eq_of_sameWord k htail,
        ih _ (by rw [List.length_drop]; omega) (List.forall₂_drop (k + 1) htail) rfl]
    · rfl

theorem braceExtent_eq_of_sameWord (depth : Nat)
    (h : List.Forall₂ Token.SameWord tokens tokens') :
    braceExtent depth tokens = braceExtent depth tokens' := by
  induction h generalizing depth with
  | nil => rfl
  | cons hhead _ ih => simp only [braceExtent, hhead.is_eq, ih]

theorem length_takeWhile_eq_of_sameWord (h : List.Forall₂ Token.SameWord tokens tokens') :
    (tokens.takeWhile (!endsHeader ·)).length = (tokens'.takeWhile (!endsHeader ·)).length := by
  induction h with
  | nil => rfl
  | @cons token token' _ _ hhead _ ih =>
    have hends : endsHeader token = endsHeader token' := by
      rw [endsHeader, endsHeader, hhead.is_eq, hhead.is_eq, hhead.is_eq, hhead.is_eq]
    rw [List.takeWhile_cons, List.takeWhile_cons, hends]
    split
    · rw [List.length_cons, List.length_cons, ih]
    · rfl

theorem any_head?_eq_of_sameWord {text : String} (h : List.Forall₂ Token.SameWord tokens tokens') :
    tokens.head?.any (·.is text) = tokens'.head?.any (·.is text) := by
  cases h with
  | nil => rfl
  | cons hhead => exact hhead.is_eq text

theorem declarationExtent_eq_of_sameWord (h : List.Forall₂ Token.SameWord tokens tokens') :
    declarationExtent tokens = declarationExtent tokens' := by
  have hbody := List.forall₂_drop (tokens'.takeWhile (!endsHeader ·)).length h
  rw [declarationExtent, declarationExtent, length_takeWhile_eq_of_sameWord h]
  simp only [any_head?_eq_of_sameWord hbody, braceExtent_eq_of_sameWord 0 hbody]

theorem declaredName?_eq_of_sameWord {token token' : Token} (htoken : token.SameWord token')
    (h : List.Forall₂ Token.SameWord tokens tokens') :
    declaredName? token tokens = declaredName? token' tokens' := by
  rw [declaredName?, declaredName?, htoken.is_eq]
  cases h with
  | nil => rfl
  | cons hhead =>
    simp only [List.head?_cons, Option.filter_some, hhead.kind_eq]
    split_ifs <;> simp [hhead.text_eq]

private theorem sameWord_refl (tokens : List Token) : List.Forall₂ Token.SameWord tokens tokens :=
  List.forall₂_same.mpr fun _ _ ↦ ⟨rfl, rfl⟩

/-- Being enclosed is not a matter of lines and line breaks. -/
theorem Enclosed.of_sameWord {name : String} {lead lead' rest rest' : List Token}
    {keyword keyword' : Token} (h : Enclosed name lead keyword rest)
    (hlead : List.Forall₂ Token.SameWord lead lead') (hkeyword : keyword.SameWord keyword')
    (hrest : List.Forall₂ Token.SameWord rest rest') : Enclosed name lead' keyword' rest' where
  not_declared := by
    rintro front' token' back' rfl
    obtain ⟨front, tail, rfl, -, htail⟩ : ∃ front tail, lead = front ++ tail ∧
        List.Forall₂ Token.SameWord front front' ∧
        List.Forall₂ Token.SameWord tail (token' :: back') := by
      exact ⟨_, _, (List.take_append_drop front'.length lead).symm,
        List.forall₂_take_append _ _ _ hlead, List.forall₂_drop_append _ _ _ hlead⟩
    cases htail with
    | @cons token _ back _ htoken hback =>
      rw [← declaredName?_eq_of_sameWord htoken (List.rel_append hback (.cons hkeyword hrest))]
      exact h.not_declared front token back rfl
  lead_eq := by
    rw [← leadExtent_eq_of_sameWord (List.rel_reverse hlead), h.lead_eq, hlead.length_eq]
  declaredName_eq := by rw [← declaredName?_eq_of_sameWord hkeyword hrest, h.declaredName_eq]
  extent_eq more := by
    rw [← declarationExtent_eq_of_sameWord (List.rel_append hrest (sameWord_refl more)),
      h.extent_eq, hrest.length_eq]

end Excerpt

end TestDouble
