import TestDouble.Proofs.Protocol.Cut
import TestDouble.Proofs.Protocol.Span
import TestDouble.Proofs.SwiftType.Nesting
import TestDouble.Protocol.Read

/-!
# Brackets in protocols

Where clauses, default values and members that are skipped are collected token by token, groups
taken whole. No bracket is left open in them, but a closer that closes nothing is collected like any
other token.
-/

namespace TestDouble

open TestDouble.Bracket Token

namespace Reader.Shifts

variable {loose : Bracket → Prop} {opened opened' : List Bracket} {scope : Scope}
  {tokens : List Token} {token : Token}

/-! ## Words in front -/

theorem leads : Shifts loose opened opened Lead.read scope tokens := by
  refine .repeated fun tokens ↦ .ahead_bind ?_
  rcases tokens with _ | ⟨token, tokens⟩
  · exact .pure
  have hword {words : List String} (hwords : ∀ word ∈ words, word ∉ texts)
      (hmem : token.text ∈ words) : Nests loose opened [token] opened :=
    .of_text (hwords _ hmem)
  refine .ite (fun hattribute ↦ .bind (.readAttribute hattribute) fun _ _ ↦ .pure) fun _ ↦
    .ite (fun haccess ↦ ?_) fun _ ↦ .ite (fun hmodifier ↦ .ite (fun _ ↦ .pure) fun _ ↦ ?_)
      fun _ ↦ .pure
  · refine .skip_bind (fun _ ↦ hword (by decide) haccess) (.ite (fun hset ↦ ?_) fun _ ↦ .pure)
    rw [Bool.and_eq_true] at hset
    exact .bind (.group .round hset.1) fun _ _ ↦ .pure
  · refine .skip_bind (fun _ ↦ ?_) .pure
    exact hmodifier.elim (hword (by decide)) fun h ↦ hword (by decide) h.1

/-! ## Parameters -/

theorem parameter {position : Nat} :
    Shifts (fun _ ↦ True) opened opened (Parameter.read position) scope tokens := by
  refine .bind .expectName fun first tokens ↦ .ahead_bind (.optionally (fun hsecond ↦ ?_)
    fun tokens ↦ ?_)
  · obtain ⟨second, hsecond⟩ := Option.isSome_iff_exists.mp hsecond
    obtain ⟨hhead, hname⟩ := Option.filter_eq_some_iff.mp hsecond
    obtain ⟨tokens, rfl⟩ := List.head?_eq_some_iff.mp hhead
    exact .skip fun hspelled ↦ .of_isName hspelled hname
  · refine .bind (.expect_mark (by decide)) fun _ _ ↦ .bind .swiftType fun _ _ ↦
      .bind (.accept (by decide)) fun _ _ ↦ .bind (.accept (by decide)) fun _ _ ↦ ?_
    exact .optionally (fun _ ↦ .collectUntil) fun _ ↦ .pure

theorem parameterClause :
    Shifts (fun _ ↦ True) opened opened Parameter.readClause scope tokens := by
  refine .bind (.expect_opener .round (by decide)) fun opener tokens ↦
    .bind (.repeatFrom fun number tokens ↦ ?_) fun _ tokens ↦ .ahead_bind ?_
  · refine .ahead_bind (.ite (fun _ ↦ .pure) fun _ ↦ .ite (fun _ ↦ .fail_bind) fun _ ↦ ?_)
    exact .bind .parameter fun _ _ ↦ .bind (.accept (by decide)) fun _ _ ↦
      .ite (fun _ ↦ .pure) fun _ ↦ .pure
  · refine .ite (fun hstands ↦ ?_) fun _ ↦ .fail_bind
    obtain ⟨closer, tokens, rfl, hcloser⟩ := stands_singleton_eq_true_iff.mp hstands
    exact .skip_bind (fun hspelled ↦ .of_closer .round hspelled hcloser (by decide)) .pure

/-! ## Members -/

theorem effect : Shifts loose opened opened Method.effect scope tokens := by
  refine .ahead_bind ?_
  rcases tokens with _ | ⟨token, tokens⟩
  · exact .pure
  refine .ite (fun heffect ↦ ?_) fun _ ↦ .pure
  obtain ⟨word, hword, his⟩ := List.any_eq_true.mp heffect
  have htext : ∀ word ∈ ["async", "throws", "rethrows"], word ∉ texts := by decide
  exact .skip_bind (fun _ ↦ .of_is his (htext word hword)) (.bind .adjoinedGroup fun _ _ ↦ .pure)

theorem methodAfterName {name : String} {line : Nat} {isStatic : Bool} :
    Shifts (fun _ ↦ True) opened opened (Method.readAfterName name line isStatic) scope tokens := by
  refine .bind .adjoinedGroup fun _ _ ↦ .sees_bind (.ite (fun _ ↦ ?_) fun _ ↦ .fail_bind)
  refine .bind .parameterClause fun _ _ ↦ .bind (.repeated fun _ ↦ .effect) fun _ _ ↦
    .bind (.accept (by decide)) fun _ _ ↦ .either (fun _ ↦ .map .swiftType) (fun _ ↦ .pure)
      fun _ _ ↦ .bind (.accept (by decide)) fun _ _ ↦ .either (fun _ ↦ .map .collectUntil)
        (fun _ ↦ .pure) fun _ _ ↦ .sees_bind (.ite (fun _ ↦ .fail_bind) fun _ ↦ .ahead_bind ?_)
  refine .ite (fun _ ↦ ?_) fun _ ↦ .fail_bind
  dsimp only
  split
  · exact .refuse
  · exact .tell_bind .pure

theorem method {isStatic : Bool} :
    Shifts (fun _ ↦ True) opened opened (Method.read isStatic) scope tokens := by
  refine .bind (.expect_mark (by decide)) fun _ tokens ↦ .ahead_bind ?_
  rcases tokens with _ | ⟨name, tokens⟩
  · exact .fail
  refine .ite (fun hname ↦ ?_) fun _ ↦ .fail_bind
  exact .skip_bind (fun hspelled ↦ .of_isName hspelled hname) (.inMember .methodAfterName)

theorem property {isStatic : Bool} :
    Shifts loose opened opened (Property.read isStatic) scope tokens := by
  refine .bind (.expect_mark (by decide)) fun _ _ ↦ .bind .expectName fun _ _ ↦ .inMember ?_
  refine .bind (.expect_mark (by decide)) fun _ _ ↦ .bind .swiftType fun _ _ ↦ .sees_bind ?_
  refine .ite (fun hstands ↦ ?_) fun _ ↦ .fail_bind
  exact .bind (.group .curly hstands) fun _ _ ↦
    .ite (fun _ ↦ .pure) fun _ ↦ .fail_bind

theorem associatedType :
    Shifts (fun _ ↦ True) opened opened AssociatedType.read scope tokens := by
  refine .bind (.expect_mark (by decide)) fun _ _ ↦ .bind .expectName fun _ _ ↦
    .bind (.accept (by decide)) fun _ _ ↦ .either (fun _ ↦ .separated fun _ ↦ .swiftType)
      (fun _ ↦ .pure) fun _ _ ↦ .bind (.accept (by decide)) fun _ _ ↦ ?_
  exact .optionally (fun _ ↦ .swiftType) fun _ ↦ .bind (.accept (by decide)) fun _ _ ↦
    .optionally (fun _ ↦ .collectUntil) fun _ ↦ .pure

theorem member {protocol : String} :
    Shifts (fun _ ↦ True) opened opened (Member.read protocol) scope tokens := by
  refine .bind .leads fun _ tokens ↦ .ahead_bind ?_
  rcases tokens with _ | ⟨token, tokens⟩
  · exact .fail
  refine .ite (fun _ ↦ .bind .method fun _ _ ↦ .pure) fun _ ↦
    .ite (fun _ ↦ .bind .property fun _ _ ↦ .pure) fun _ ↦
      .ite (fun _ ↦ .bind .associatedType fun _ _ ↦ .pure) fun _ ↦
        .ite (fun hskipped ↦ .tell_bind ?_) fun _ ↦ .fail
  have htext : ∀ word ∈ skippedMembers, word ∉ texts := by decide
  exact .skip_bind (fun _ ↦ .of_text (htext _ hskipped)) (.bind .collectUntil fun _ _ ↦ .pure)

/-! ## Protocols -/

theorem inheritance : Shifts loose opened opened Protocol.readInheritance scope tokens := by
  refine .bind (.accept (by decide)) fun _ _ ↦ .ite (fun _ ↦ ?_) fun _ ↦ .pure
  refine .bind (.separated fun _ ↦ .bind (.accept (by decide)) fun _ _ ↦ ?_) fun _ _ ↦ .pure
  exact .ite (fun _ ↦ .pure) fun _ ↦ .bind .swiftType fun _ _ ↦ .pure

theorem body {name : String} {line : Nat} :
    Shifts (fun _ ↦ True) opened opened (Protocol.readBody name line) scope tokens := by
  refine .repeated fun _ ↦ .ahead_bind (.ite (fun _ ↦ .pure) fun _ ↦
    .ite (fun _ ↦ .fail_bind) fun _ ↦ .bind (.accept (by decide)) fun _ _ ↦ ?_)
  exact .ite (fun _ ↦ .pure) fun _ ↦ .bind .member fun _ _ ↦ .pure

end Reader.Shifts

/-! ## Declarations -/

open Reader

/-- Behind a header, the body begins with a brace. -/
theorem exists_brace_of_reads {scope : Scope} {front back rest : List Token} {context : String}
    {next : Token → Reader Protocol} {protocol : Protocol}
    (hfront : Nests (fun _ ↦ True) [] front [])
    (hspelled : ∀ token ∈ back, Spelled token.kind token.text.toList)
    (hnext : ∀ token tokens, Shifts (fun _ ↦ True) [.curly] [] (next token) scope tokens)
    (h : Reads (expect "\x7b" context >>= next) scope back protocol rest) :
    ∃ header opener body, front ++ back = header ++ opener :: body ++ rest ∧
      opener.is "\x7b" = true ∧ Nests (fun _ ↦ True) [] (header ++ opener :: body) [] := by
  obtain ⟨opener, between, hexpect, hread⟩ := reads_bind_iff.mp h
  obtain ⟨rfl, hopener⟩ := reads_expect_iff.mp hexpect
  obtain ⟨hfirst, hbetween⟩ := List.forall_mem_cons.mp hspelled
  obtain ⟨body, rfl, hbody⟩ := hnext opener between hbetween hread
  have hcurly : Nests (fun _ ↦ True) [] [opener] [.curly] :=
    .of_opener .curly hfirst hopener (by decide)
  exact ⟨front, opener, body, by simp, hopener, hfront.append (hcurly.append hbody)⟩

/-- What a protocol is read from: words in front of its keyword, which are nested, and a header and
a body, which are nested but for closers that close nothing. -/
theorem exists_nests_of_reads {line : Nat} {scope : Scope} {tokens rest : List Token}
    {protocol : Protocol} (hspelled : ∀ token ∈ tokens, Spelled token.kind token.text.toList)
    (h : Reads (Protocol.readDeclaration line) scope tokens protocol rest) :
    ∃ leads lead keyword header opener body,
      tokens = lead ++ keyword :: (header ++ opener :: body ++ rest) ∧
      Reads Lead.read scope tokens leads (keyword :: (header ++ opener :: body ++ rest)) ∧
      keyword.is "protocol" = true ∧ opener.is "\x7b" = true ∧
      Nests (fun _ ↦ False) [] lead [] ∧ Nests (fun _ ↦ True) [] (header ++ opener :: body) [] := by
  rw [Protocol.readDeclaration] at h
  obtain ⟨leads, lead, between, rfl, hlead, hbetween, hleads, hread⟩ :=
    Shifts.exists_of_bind (fun _ ↦ False) [] .leads hspelled h
  clear h hspelled
  obtain ⟨keyword, rest', hkeyword, h⟩ := reads_bind_iff.mp hread
  obtain ⟨rfl, his⟩ := reads_expect_iff.mp hkeyword
  clear hread
  have hspelled := (List.forall_mem_cons.mp hbetween).2
  obtain ⟨name, front, _, rfl, hname, hspelled, -, h⟩ :=
    Shifts.exists_of_bind (fun _ ↦ True) [] .expectName hspelled h
  obtain ⟨_, generics, _, rfl, hgenerics, hspelled, -, h⟩ :=
    Shifts.exists_of_bind (fun _ ↦ True) [] .adjoinedGroup hspelled h
  obtain ⟨_, inherited, _, rfl, hinherited, hspelled, -, h⟩ :=
    Shifts.exists_of_bind (fun _ ↦ True) [] .inheritance hspelled h
  obtain ⟨_, word, back, rfl, hword, hspelled, -, h⟩ :=
    Shifts.exists_of_bind (fun _ ↦ True) [] (.accept (by decide)) hspelled h
  have hheader := hname.append (hgenerics.append (hinherited.append hword))
  have hsplit : ∃ header opener body, (front ++ (generics ++ (inherited ++ word))) ++ back =
        header ++ opener :: body ++ rest ∧
      opener.is "\x7b" = true ∧ Nests (fun _ ↦ True) [] (header ++ opener :: body) [] := by
    -- A where clause goes on up to the brace.
    rcases reads_ite_iff.mp h with ⟨-, h⟩ | ⟨-, h⟩
    · obtain ⟨_, clause, back, rfl, hclause, hspelled, -, h⟩ :=
        Shifts.exists_of_bind (fun _ ↦ True) [] .collectUntil hspelled h
      rw [← List.append_assoc]
      exact exists_brace_of_reads (hheader.append hclause) hspelled (fun _ _ ↦ .bind .body fun _ _ ↦
        .bind (.expect_closer .curly (by decide)) fun _ _ ↦ .tell_bind .pure) h
    · exact exists_brace_of_reads hheader hspelled (fun _ _ ↦ .bind .body fun _ _ ↦
        .bind (.expect_closer .curly (by decide)) fun _ _ ↦ .tell_bind .pure) h
  obtain ⟨header, opener, body, heq, hopener, hnests⟩ := hsplit
  simp only [List.append_assoc] at heq hleads ⊢
  rw [heq] at hleads ⊢
  exact ⟨leads, lead, keyword, header, opener, body, rfl, hleads, his, hopener, hlead,
    hnests⟩

/-! ## Braces of an excerpt -/

/-- Up to the end of a body there is a brace open. -/
theorem braces_of_braceExtent (depth : Nat) {tokens front back : List Token}
    (h : tokens.take (Excerpt.braceExtent (depth + 1) tokens) = front ++ back) :
    front.countP (·.is "\x7d") + (if back = [] then 0 else 1) ≤
      depth + 1 + front.countP (·.is "\x7b") := by
  induction tokens generalizing depth front with
  | nil =>
    rw [List.take_nil, List.nil_eq, List.append_eq_nil_iff] at h
    simp [h.1, h.2]
  | cons token tokens ih =>
    rcases front with _ | ⟨first, front⟩
    · split <;> simp
    rw [Excerpt.braceExtent] at h
    -- The height behind a token differs by what the token opens or closes.
    have hcons (height : Nat)
        (hheight : depth + [token].countP (·.is "\x7b") = height + [token].countP (·.is "\x7d"))
        (hextent : (token :: tokens).take (Excerpt.braceExtent (height + 1) tokens + 1) =
          first :: front ++ back) :
        (first :: front).countP (·.is "\x7d") + (if back = [] then 0 else 1) ≤
          depth + 1 + (first :: front).countP (·.is "\x7b") := by
      obtain ⟨rfl, hrest⟩ := List.cons.inj hextent
      have hle := ih height hrest
      rw [← List.singleton_append, List.countP_append, List.countP_append]
      omega
    by_cases hopen : token.is "\x7b" = true
    · have hclose : token.is "\x7d" = false := is_eq_false_of_is hopen (by decide)
      rw [if_pos hopen] at h
      exact hcons _ (by simp [hopen, hclose]) h
    rw [if_neg hopen] at h
    by_cases hclose : token.is "\x7d" = true
    · rw [if_pos hclose] at h
      rcases depth with _ | depth
      · obtain ⟨rfl, hrest⟩ := List.cons.inj h
        obtain ⟨rfl, rfl⟩ := List.append_eq_nil_iff.mp hrest.symm
        simp [hopen, hclose]
      · rw [if_neg (by omega), Nat.add_sub_cancel] at h
        exact hcons depth (by simp [hopen, hclose]) h
    · rw [if_neg hclose] at h
      exact hcons _ (by simp [hopen, hclose]) h

private theorem no_braces_of_header {header : List Token}
    (h : ∀ token ∈ header, Excerpt.endsHeader token = false) :
    header.countP (·.is "\x7d") = 0 ∧ ∀ token ∈ header, ¬ token.is "\x7b" = true := by
  have hnot {text : String} (htext : text ∈ ["\x7b", "\x7d", ";", "protocol"]) :
      ∀ token ∈ header, ¬ token.is text = true := by
    intro token htoken his
    have hends := Excerpt.endsHeader_of_is his htext
    rw [h token htoken] at hends
    cases hends
  exact ⟨List.countP_eq_zero.mpr (hnot (by decide)), hnot (by decide)⟩

/-- What stands in front of a part of a declaration is in its header, or it goes on into its body,
where a brace is open up to the end. -/
theorem header_or_body_of_declarationExtent {tokens front back : List Token}
    (h : tokens.take (Excerpt.declarationExtent tokens) = front ++ back) :
    (∀ token ∈ front, Excerpt.endsHeader token = false) ∨
      ∃ header opener body, front = header ++ opener :: body ∧
        (∀ token ∈ header, Excerpt.endsHeader token = false) ∧ opener.is "\x7b" = true ∧
        body.countP (·.is "\x7d") + (if back = [] then 0 else 1) ≤
          1 + body.countP (·.is "\x7b") := by
  have hends : ∀ token ∈ tokens.takeWhile (!Excerpt.endsHeader ·),
      Excerpt.endsHeader token = false := Excerpt.forall_mem_takeWhile
  by_cases hopens : (tokens.dropWhile (!Excerpt.endsHeader ·)).head?.any (·.is "\x7b") = true
  · obtain ⟨opener, hhead, hopener⟩ := (Option.any_eq_true _ _).mp hopens
    obtain ⟨more, hmore⟩ := List.head?_eq_some_iff.mp hhead
    have htokens := List.takeWhile_append_dropWhile (p := (!Excerpt.endsHeader ·)) (l := tokens)
    generalize tokens.takeWhile (!Excerpt.endsHeader ·) = header at hends htokens
    rw [hmore] at htokens
    rw [← htokens, Excerpt.declarationExtent_of_opener hends hopener, Nat.add_assoc, Nat.add_comm 1,
      List.take_length_add_append, List.take_succ_cons] at h
    -- The front ends with the header, in the body, or inside the header.
    rcases List.append_eq_append_iff.mp h with ⟨_ | ⟨first, body⟩, rfl, hbody⟩ | ⟨rest, rfl, -⟩
    · rw [List.append_nil]
      exact .inl hends
    · obtain ⟨rfl, hinner⟩ := List.cons.inj hbody
      exact .inr ⟨header, opener, body, rfl, hends, hopener, braces_of_braceExtent 0 hinner⟩
    · exact .inl fun token htoken ↦ hends token (List.mem_append_left _ htoken)
  · rw [Excerpt.declarationExtent, Excerpt.drop_length_takeWhile, if_neg hopens,
      ← List.prefix_iff_eq_take.mp (List.takeWhile_prefix _)] at h
    rw [h] at hends
    exact .inl fun token htoken ↦ hends token (List.mem_append_left _ htoken)

/-- What stands in front of a part of a declaration closes no more braces than it opens, and within
the body it leaves one open. -/
theorem braces_of_declarationExtent {tokens front back : List Token}
    (h : tokens.take (Excerpt.declarationExtent tokens) = front ++ back) :
    front.countP (·.is "\x7d") ≤ front.countP (·.is "\x7b") ∧
      (back ≠ [] → (∃ token ∈ front, token.is "\x7b" = true) →
        front.countP (·.is "\x7d") < front.countP (·.is "\x7b")) := by
  rcases header_or_body_of_declarationExtent h with
    hheader | ⟨header, opener, body, rfl, hheader, hopener, hle⟩
  · obtain ⟨hzero, hnone⟩ := no_braces_of_header hheader
    refine ⟨by omega, ?_⟩
    rintro - ⟨token, htoken, his⟩
    exact absurd his (hnone token htoken)
  · have hclose : opener.is "\x7d" = false := is_eq_false_of_is hopener (by decide)
    simp only [List.countP_append, List.countP_cons, hopener, hclose,
      (no_braces_of_header hheader).1, if_true, Bool.false_eq_true, if_false]
    refine ⟨by split at hle <;> omega, fun hback _ ↦ ?_⟩
    rw [if_neg hback] at hle
    omega

/-- A declaration that is read up to a point where no bracket is open is read to its end, and no
brace in it closes nothing. -/
theorem nests_of_declarationExtent {tokens taken rest : List Token}
    (hdeclared : tokens.take (Excerpt.declarationExtent tokens) = taken ++ rest)
    (hspelled : ∀ token ∈ taken, Spelled token.kind token.text.toList)
    (hopener : ∃ token ∈ taken, token.is "\x7b" = true)
    (hnests : Nests (fun _ ↦ True) [] taken []) :
    rest = [] ∧ Nests (· ∈ [.round, .square]) [] taken [] := by
  obtain ⟨hle, hlt⟩ := braces_of_declarationExtent hdeclared
  have hopeners : curly.openers taken = taken.countP (·.is "\x7b") :=
    openers_eq_countP (by decide) hspelled
  have hclosers : curly.closers taken = taken.countP (·.is "\x7d") :=
    closers_eq_countP (by decide) hspelled
  constructor
  · -- Within the body a brace would be open.
    by_contra hne
    have hopen := hlt hne hopener
    have hclosed := hnests.openers_le .curly
    rw [hopeners, hclosers, List.count_nil] at hclosed
    omega
  · have hcurly := hnests.of_closers_le .curly (by rwa [hopeners, hclosers])
    have hangle := hcurly.of_closers_le .angle (by simp [closers_angle])
    exact hangle.mono fun bracket hbracket ↦ by cases bracket <;> simp_all

namespace Excerpt

variable {text : String} {excerpts : List Excerpt} {excerpt : Excerpt} {protocol : Protocol}

/-- What is read of an excerpt is all of it, and no brace in it closes nothing. -/
theorem nests_of_read (h : ofText text = .ok excerpts) (hmem : excerpt ∈ excerpts)
    (hread : excerpt.read.result = .ok protocol) :
    Nests (· ∈ [.round, .square]) [] excerpt.items [] := by
  obtain ⟨_, earlier, keyword, later, -, -, hcut⟩ := exists_cutFrom_of_ofText h hmem
  have hspelled := spelled_of_mem_items h hmem
  have hdeclaration : Reads (Protocol.readDeclaration excerpt.line) _ excerpt.items protocol
    excerpt.read.rest := ⟨hread, rfl⟩
  obtain ⟨leads, lead, keyword', header, opener, body, hitems, hleads, his, hopener, hlead,
    hbody⟩ := exists_nests_of_reads hspelled hdeclaration
  have htaken : ∀ token ∈ header ++ opener :: body, Spelled token.kind token.text.toList := by
    intro token htoken
    refine hspelled token ?_
    rw [hitems]
    exact List.mem_append_right _ (List.mem_cons_of_mem _ (List.mem_append_left _ htoken))
  -- The words in front are read up to the keyword that the excerpt is cut out around.
  have hdeclared : later.take (declarationExtent later)
      = (header ++ opener :: body) ++ excerpt.read.rest := by
    rw [hcut.items_eq] at hleads hspelled
    rcases (leads_of_leadExtent earlier).reads hcut.is_keyword hspelled hleads with heq | hround
    · exact (List.cons.inj heq).2.symm
    · rw [stands_singleton_cons, is_eq_false_of_is his (by decide)] at hround
      cases hround
  obtain ⟨hrest, hnests⟩ :=
    nests_of_declarationExtent hdeclared htaken ⟨opener, by simp, hopener⟩ hbody
  have hkeyword : Nests (· ∈ [.round, .square]) [] [keyword'] [] := .of_is his (by decide)
  rw [hitems, hrest, List.append_nil]
  exact (hlead.mono fun _ ↦ False.elim).append (hkeyword.append hnests)

/-- An accepted declaration leaves no bracket open, and no brace closes nothing. Whether it is
nested is up to its round and square closers: there may be more of them than of openers. -/
theorem nested_iff_of_read (h : ofText text = .ok excerpts) (hmem : excerpt ∈ excerpts)
    (hread : excerpt.read.result = .ok protocol) :
    Nests (· ∈ [.round, .square]) [] excerpt.items [] ∧
      (Nested excerpt.items ↔ ∀ bracket ∈ [Bracket.round, .square],
        excerpt.items.countP (·.is bracket.closer) ≤
          excerpt.items.countP (·.is bracket.opener)) := by
  have hspelled := spelled_of_mem_items h hmem
  have hnests := nests_of_read h hmem hread
  refine ⟨hnests, ?_⟩
  have hangle {bracket : Bracket} (hbracket : bracket ∈ [Bracket.round, .square]) :
      bracket ≠ .angle := by
    rintro rfl
    simp at hbracket
  rw [Nested, ← nests_iff_openBehind]
  constructor
  · intro hnested bracket hbracket
    rw [← closers_eq_countP (hangle hbracket) hspelled,
      ← openers_eq_countP (hangle hbracket) hspelled]
    simpa using hnested.closers_le bracket id
  · intro hcount
    have hle (bracket : Bracket) (hbracket : bracket ∈ [Bracket.round, .square]) :
        bracket.closers excerpt.items + [].count bracket ≤
          bracket.openers excerpt.items + [].count bracket := by
      rw [closers_eq_countP (hangle hbracket) hspelled,
        openers_eq_countP (hangle hbracket) hspelled]
      simpa using hcount bracket hbracket
    -- Where closers are no more than openers, none of them closes nothing.
    have hround := hnests.of_closers_le .round (hle _ (by decide))
    refine (hround.of_closers_le .square (hle _ (by decide))).mono ?_
    rintro bracket ⟨⟨hbracket, hround⟩, hsquare⟩
    simp_all

/-- Closers that close nothing stand in a default value and in a member that is skipped. -/
theorem nested_iff_of_read_surplus :
    let text := "protocol P \x7b\nfunc run(size: Int = 1], done: (Int) -> Void)\ninit())\n\x7d\n"
      ++ "protocol Q \x7b\nfunc run(sizes: [Int] = [1], done: (Int) -> Void)\ninit()\n\x7d"
    ∃ excerpts, ofText text = .ok excerpts ∧ excerpts.map (·.name) = ["P", "Q"] ∧
      ∀ excerpt ∈ excerpts, excerpt.read.result.isOk = true ∧
        Nests (· ∈ [.round, .square]) [] excerpt.items [] ∧
        (Nested excerpt.items ↔ excerpt.name = "Q") := by
  intro text
  have hfound : (ofText text).toOption.any (fun excerpts ↦
      excerpts.map (·.name) = ["P", "Q"] ∧ ∀ excerpt ∈ excerpts, excerpt.read.result.isOk = true ∧
        ((∀ bracket ∈ [Bracket.round, .square], excerpt.items.countP (·.is bracket.closer) ≤
          excerpt.items.countP (·.is bracket.opener)) ↔ excerpt.name = "Q")) = true := by
    decide +kernel
  obtain ⟨excerpts, hexcerpts, hall⟩ := (Option.any_eq_true _ _).mp hfound
  obtain ⟨hnames, hall⟩ := of_decide_eq_true hall
  rw [Except.toOption_eq_some_iff] at hexcerpts
  refine ⟨excerpts, hexcerpts, hnames, fun excerpt hmem ↦ ?_⟩
  obtain ⟨hok, hcount⟩ := hall excerpt hmem
  obtain ⟨protocol, hread⟩ := Except.isOk_iff_exists.mp hok
  obtain ⟨hnests, hnested⟩ := nested_iff_of_read hexcerpts hmem hread
  exact ⟨hok, hnests, hnested.trans hcount⟩

/-- A closer in a where clause is collected like any other token. -/
theorem not_forall_nested : ¬ ∀ (text : String) (excerpts : List Excerpt),
    ofText text = .ok excerpts → ∀ excerpt ∈ excerpts, ∀ protocol,
      excerpt.read.result = .ok protocol → Nested excerpt.items := by
  intro h
  have hfound : (ofText "protocol P where T == U) \x7b\n\x7d").toOption.any (fun excerpts ↦
      excerpts.any fun excerpt ↦ excerpt.read.result.isOk && !decide (Nested excerpt.items)) =
        true := by
    decide +kernel
  obtain ⟨excerpts, hexcerpts, hany⟩ := (Option.any_eq_true _ _).mp hfound
  obtain ⟨excerpt, hmem, hexcerpt⟩ := List.any_eq_true.mp hany
  rw [Bool.and_eq_true, Bool.not_eq_true', decide_eq_false_iff_not] at hexcerpt
  obtain ⟨protocol, hread⟩ := Except.isOk_iff_exists.mp hexcerpt.1
  exact hexcerpt.2 (h _ excerpts (Except.toOption_eq_some_iff.mp hexcerpts) excerpt hmem protocol
    hread)

end Excerpt

end TestDouble
