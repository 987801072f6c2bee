import Mathlib.Data.List.Nodup
import TestDouble.Proofs.Protocol.Brace

/-!
# Where declarations lie

Every protocol that a text declares is located, and it is located once. A declaration is looked for
behind the end of the one before, so the spans of two never overlap, and a keyword that is passed by
lies in the body of the declaration that it is passed by with: the header of a declaration ends
where the next keyword stands.
-/

namespace TestDouble.Excerpt

/-! ## Positions -/

/-- The positions of a declaration among the tokens of a text, from its keyword to just behind its
last token. -/
structure Span where
  start : Nat
  stop : Nat
  deriving DecidableEq, Repr

/-- The spans of the protocols declared in the tokens, with `offset` tokens before these. -/
def spansFrom (offset : Nat) : List Token → List Span
  | [] => []
  | token :: tokens =>
    if (declaredName? token tokens).isSome then
      let n := declarationExtent tokens
      ⟨offset, offset + 1 + n⟩ :: spansFrom (offset + 1 + n) (tokens.drop n)
    else spansFrom (offset + 1) tokens
termination_by tokens => tokens.length
decreasing_by all_goals simp only [List.length_drop, List.length_cons]; omega

def spans (items : List Token) : List Span :=
  spansFrom 0 items

/-- A declaration begins at the position: a keyword stands there and a name behind it. -/
def DeclaresAt (items : List Token) (position : Nat) : Prop :=
  ∃ keyword name rest, items.drop position = keyword :: name :: rest ∧
    keyword.is "protocol" = true ∧ name.kind = .identifier

/-- The header of the declaration at `start` goes on up to the opening brace at `brace`. -/
def Opens (items : List Token) (start brace : Nat) : Prop :=
  ∃ header opener rest, items.drop (start + 1) = header ++ opener :: rest ∧
    brace = start + 1 + header.length ∧ opener.is "\x7b" = true ∧
    ∀ token ∈ header, endsHeader token = false

/-- The brace at `close` closes the body that the one at `brace` opens. -/
def Matches (items : List Token) (brace close : Nat) : Prop :=
  ∃ inner closer rest, items.drop (brace + 1) = inner ++ closer :: rest ∧
    close = brace + 1 + inner.length ∧ Closes 0 inner closer

/-- What the declaration at `start` consists of, up to `stop`. -/
structure Delimits (items : List Token) (start stop : Nat) : Prop where
  declares : DeclaresAt items start
  start_lt_stop : start < stop
  stop_le : stop ≤ items.length
  /-- Any other keyword lies in the body. -/
  keyword : ∀ position token, start < position → position < stop →
    items[position]? = some token → token.is "protocol" = true →
    ∃ brace < position, Opens items start brace
  /-- The body ends with the matching brace, or with the text. -/
  body : ∀ brace, Opens items start brace → brace < stop ∧
    ((∃ close, Matches items brace close ∧ stop = close + 1) ∨
      (¬ ∃ close, Matches items brace close) ∧ stop = items.length)
  /-- Without a body, the declaration is its header. -/
  header : (¬ ∃ brace, Opens items start brace) →
    (∀ position token, start < position → position < stop → items[position]? = some token →
      endsHeader token = false) ∧
    ∀ token ∈ items[stop]?, endsHeader token = true

/-- The excerpt is what the span covers, with the tokens before it that belong to it. -/
structure Located (tokens : Tokens) (excerpt : Excerpt) (span : Span) : Prop where
  keyword : ∃ keyword ∈ tokens.items[span.start]?, keyword.is "protocol" = true ∧
    excerpt.line = keyword.line
  name : ∃ name ∈ tokens.items[span.start + 1]?, name.kind = .identifier ∧
    excerpt.name = name.text
  items_eq : excerpt.items = (tokens.items.take span.stop).drop
    (span.start - leadExtent (tokens.items.take span.start).reverse)
  finish_eq : excerpt.finish = tokens.finish

/-! ## One declaration -/

variable {items rest header more : List Token} {token keyword opener : Token}

theorem declaredName?_eq_some_iff {name : String} : declaredName? keyword rest = some name ↔
    keyword.is "protocol" = true ∧ ∃ token more, rest = token :: more ∧
      token.kind = .identifier ∧ token.text = name := by
  rcases rest with _ | ⟨token, more⟩
  · simp [declaredName?]
  · by_cases his : keyword.is "protocol" = true
    · simp [declaredName?, his, Option.filter_some]
    · simp [declaredName?, his]

theorem isSome_declaredName?_iff {start : Nat} (hdrop : items.drop start = keyword :: rest) :
    (declaredName? keyword rest).isSome = true ↔ DeclaresAt items start := by
  rw [Option.isSome_iff_exists, DeclaresAt, hdrop]
  constructor
  · rintro ⟨name, hname⟩
    obtain ⟨his, token, more, rfl, hkind, -⟩ := declaredName?_eq_some_iff.mp hname
    exact ⟨keyword, token, more, rfl, his, hkind⟩
  · rintro ⟨_, token, more, heq, his, hkind⟩
    obtain ⟨rfl, rfl⟩ := List.cons.inj heq
    exact ⟨token.text, declaredName?_eq_some_iff.mpr ⟨his, token, more, rfl, hkind, rfl⟩⟩

theorem endsHeader_of_is {text : String} (h : token.is text = true)
    (htext : text ∈ ["\x7b", "\x7d", ";", "protocol"]) : endsHeader token = true := by
  simp only [List.mem_cons, List.not_mem_nil, or_false] at htext
  rcases htext with rfl | rfl | rfl | rfl <;> simp [endsHeader, h]

/-- The header goes up to the first token that ends it. -/
theorem takeWhile_eq_header (hheader : ∀ token ∈ header, endsHeader token = false)
    (hopener : opener.is "\x7b" = true) :
    (header ++ opener :: more).takeWhile (!endsHeader ·) = header := by
  have hends := endsHeader_of_is hopener (by decide)
  rw [List.takeWhile_append_of_pos (by simpa using hheader),
    List.takeWhile_cons_of_neg (by simp [hends]), List.append_nil]

theorem declarationExtent_of_opener (hheader : ∀ token ∈ header, endsHeader token = false)
    (hopener : opener.is "\x7b" = true) :
    declarationExtent (header ++ opener :: more) = header.length + 1 + braceExtent 1 more := by
  rw [declarationExtent, takeWhile_eq_header hheader hopener, List.drop_left, List.head?_cons,
    Option.any_some, if_pos hopener, braceExtent, if_pos hopener, Nat.zero_add]
  omega

theorem forall_mem_takeWhile : ∀ token ∈ rest.takeWhile (!endsHeader ·), endsHeader token = false :=
  fun _ htoken ↦ by simpa using List.mem_takeWhile_imp htoken

/-- The declaration at a position. -/
structure At (items : List Token) (start : Nat) (keyword : Token) (rest : List Token) : Prop where
  drop_eq : items.drop start = keyword :: rest
  declares : DeclaresAt items start

namespace At

variable {start : Nat}

theorem drop_succ (h : At items start keyword rest) : items.drop (start + 1) = rest := by
  rw [← List.drop_drop, h.drop_eq, List.drop_one, List.tail_cons]

theorem length_eq (h : At items start keyword rest) : items.length = start + 1 + rest.length := by
  have hlength := congrArg List.length h.drop_eq
  rw [List.length_drop, List.length_cons] at hlength
  omega

theorem getElem?_eq (h : At items start keyword rest) (n : Nat) :
    items[start + 1 + n]? = rest[n]? := by
  rw [← h.drop_succ, List.getElem?_drop]

/-- The body of a declaration opens at one brace. -/
theorem eq_of_opens (h : At items start keyword (header ++ opener :: more))
    (hheader : ∀ token ∈ header, endsHeader token = false) (hopener : opener.is "\x7b" = true)
    {brace : Nat} (hopens : Opens items start brace) : brace = start + 1 + header.length := by
  obtain ⟨header', opener', more', hdrop, rfl, hopener', hheader'⟩ := hopens
  rw [h.drop_succ] at hdrop
  have htake : (header ++ opener :: more).takeWhile (!endsHeader ·) = header :=
    takeWhile_eq_header hheader hopener
  rw [hdrop, takeWhile_eq_header hheader' hopener'] at htake
  rw [htake]

/-- A body goes on to the matching brace, or to the end of the text. -/
theorem stop_of_body (h : At items start keyword (header ++ opener :: more)) :
    (∃ close, Matches items (start + 1 + header.length) close ∧
      start + 1 + (header.length + 1 + braceExtent 1 more) = close + 1) ∨
    (¬ ∃ close, Matches items (start + 1 + header.length) close) ∧
      start + 1 + (header.length + 1 + braceExtent 1 more) = items.length := by
  have hmore : items.drop (start + 1 + header.length + 1) = more := by
    rw [← List.drop_drop, ← List.drop_drop, h.drop_succ, List.drop_left, List.drop_one,
      List.tail_cons]
  by_cases hmatch : ∃ close, Matches items (start + 1 + header.length) close
  · left
    refine hmatch.imp fun close hclose ↦ ⟨hclose, ?_⟩
    obtain ⟨inner, closer, rest, hdrop, rfl, hcloses⟩ := hclose
    rw [← hmore, hdrop, hcloses.braceExtent_eq]
    omega
  · right
    refine ⟨hmatch, ?_⟩
    rcases exists_closes_or 0 more with ⟨inner, closer, rest, hsplit, hcloses⟩ | hend
    · exact absurd ⟨_, inner, closer, rest, hmore.trans hsplit, rfl, hcloses⟩ hmatch
    · have hlength := h.length_eq
      rw [List.length_append, List.length_cons] at hlength
      rw [Nat.zero_add] at hend
      omega

/-- No keyword stands in the header or at the brace behind it. -/
theorem length_lt_of_keyword {n : Nat} (hheader : ∀ token ∈ header, endsHeader token = false)
    (hopener : opener.is "\x7b" = true) (htoken : (header ++ opener :: more)[n]? = some token)
    (his : token.is "protocol" = true) : header.length < n := by
  by_contra hle
  rcases Nat.lt_or_eq_of_le (Nat.le_of_not_lt hle) with hlt | rfl
  · rw [List.getElem?_append_left hlt] at htoken
    have hnot := hheader token (List.mem_of_getElem? htoken)
    rw [endsHeader_of_is his (by decide)] at hnot
    cases hnot
  · rw [List.getElem?_append_right (Nat.le_refl _), Nat.sub_self, List.getElem?_cons_zero]
      at htoken
    obtain rfl := Option.some.inj htoken
    rw [is_eq_false_of_is his (by decide)] at hopener
    cases hopener

theorem delimits_of_opener (h : At items start keyword (header ++ opener :: more))
    (hheader : ∀ token ∈ header, endsHeader token = false) (hopener : opener.is "\x7b" = true) :
    Delimits items start (start + 1 + (header.length + 1 + braceExtent 1 more)) := by
  have hlength := h.length_eq
  rw [List.length_append, List.length_cons] at hlength
  have hextent := braceExtent_le 1 more
  have hopens : Opens items start (start + 1 + header.length) :=
    ⟨header, opener, more, h.drop_succ, rfl, hopener, hheader⟩
  refine ⟨h.declares, by omega, by omega, ?_, ?_, fun hnone ↦ absurd ⟨_, hopens⟩ hnone⟩
  · intro position token hstart _ htoken his
    obtain ⟨n, rfl⟩ := Nat.exists_eq_add_of_le hstart
    rw [Nat.succ_eq_add_one, h.getElem?_eq] at htoken
    have hlt := length_lt_of_keyword hheader hopener htoken his
    exact ⟨_, by omega, hopens⟩
  · intro brace hbrace
    obtain rfl := h.eq_of_opens hheader hopener hbrace
    exact ⟨by omega, h.stop_of_body⟩

/-- A declaration without a body goes on to whatever ends its header. -/
theorem delimits_of_no_opener (h : At items start keyword rest)
    (hnone : ¬ ∃ brace, Opens items start brace) :
    Delimits items start (start + 1 + (rest.takeWhile (!endsHeader ·)).length) := by
  have hlength := h.length_eq
  have htake := (List.takeWhile_prefix (!endsHeader ·) (l := rest)).length_le
  have hheader : ∀ position token, start < position →
      position < start + 1 + (rest.takeWhile (!endsHeader ·)).length →
      items[position]? = some token → endsHeader token = false := by
    intro position token hstart hstop htoken
    obtain ⟨n, rfl⟩ := Nat.exists_eq_add_of_le hstart
    rw [Nat.succ_eq_add_one, h.getElem?_eq] at htoken
    have hmem : token ∈ rest.takeWhile (!endsHeader ·) := by
      rw [← List.takeWhile_append_dropWhile (p := (!endsHeader ·)) (l := rest),
        List.getElem?_append_left (by omega)] at htoken
      exact List.mem_of_getElem? htoken
    exact forall_mem_takeWhile token hmem
  refine ⟨h.declares, by omega, by omega, ?_, fun brace hopens ↦ absurd ⟨brace, hopens⟩ hnone,
    fun _ ↦ ⟨hheader, ?_⟩⟩
  · intro position token hstart hstop htoken his
    have hnot := hheader position token hstart hstop htoken
    rw [endsHeader_of_is his (by decide)] at hnot
    cases hnot
  · intro token htoken
    rw [h.getElem?_eq, ← List.head?_drop, drop_length_takeWhile] at htoken
    have hhead := List.head?_dropWhile_not (!endsHeader ·) rest
    rw [htoken] at hhead
    simpa using hhead

theorem delimits (h : At items start keyword rest) :
    Delimits items start (start + 1 + declarationExtent rest) := by
  by_cases hopens : ∃ brace, Opens items start brace
  · obtain ⟨brace, header, opener, more, hdrop, rfl, hopener, hheader⟩ := hopens
    rw [h.drop_succ] at hdrop
    subst hdrop
    rw [declarationExtent_of_opener hheader hopener]
    exact h.delimits_of_opener hheader hopener
  · have hextent : declarationExtent rest = (rest.takeWhile (!endsHeader ·)).length := by
      rw [declarationExtent, drop_length_takeWhile, if_neg]
      intro hbrace
      obtain ⟨opener, hhead, hopener⟩ := (Option.any_eq_true _ _).mp hbrace
      obtain ⟨more, hmore⟩ := List.head?_eq_some_iff.mp hhead
      exact hopens ⟨_, _, opener, more, by
        rw [h.drop_succ, ← hmore, List.takeWhile_append_dropWhile], rfl, hopener,
        forall_mem_takeWhile⟩
    rw [hextent]
    exact h.delimits_of_no_opener hopens

end At

/-! ## All declarations -/

variable {offset : Nat} {tokens : List Token}

private theorem drop_succ_of_drop (hdrop : items.drop offset = token :: tokens) :
    items.drop (offset + 1) = tokens := by
  rw [← List.drop_drop, hdrop, List.drop_one, List.tail_cons]

private theorem drop_add_of_drop (hdrop : items.drop offset = token :: tokens) (n : Nat) :
    items.drop (offset + 1 + n) = tokens.drop n := by
  rw [← List.drop_drop, drop_succ_of_drop hdrop]

theorem delimits_of_mem {span : Span} (hdrop : items.drop offset = tokens)
    (hspan : span ∈ spansFrom offset tokens) : Delimits items span.start span.stop := by
  fun_induction spansFrom offset tokens with
  | case1 => simp at hspan
  | case2 offset token tokens hname n ih =>
    rcases List.mem_cons.mp hspan with rfl | hspan
    · exact At.delimits ⟨hdrop, (isSome_declaredName?_iff hdrop).mp hname⟩
    · exact ih (drop_add_of_drop hdrop n) hspan
  | case3 offset token tokens _ ih => exact ih (drop_succ_of_drop hdrop) hspan

private theorem le_start_of_mem {span : Span} (hspan : span ∈ spansFrom offset tokens) :
    offset ≤ span.start := by
  fun_induction spansFrom offset tokens with
  | case1 => simp at hspan
  | case2 offset token tokens _ n ih =>
    rcases List.mem_cons.mp hspan with rfl | hspan
    · exact Nat.le_refl _
    · have := ih hspan
      omega
  | case3 offset token tokens _ ih => exact Nat.le_of_succ_le (ih hspan)

theorem pairwise_spansFrom (offset : Nat) (tokens : List Token) :
    (spansFrom offset tokens).Pairwise (·.stop ≤ ·.start) := by
  fun_induction spansFrom offset tokens with
  | case1 => exact .nil
  | case2 offset token tokens _ n ih => exact .cons (fun _ hspan ↦ le_start_of_mem hspan) ih
  | case3 offset token tokens _ ih => exact ih

/-- A keyword that is passed by lies in a body. -/
theorem exists_span_of_declares {position : Nat} (hdrop : items.drop offset = tokens)
    (hposition : offset ≤ position) (hdeclares : DeclaresAt items position) :
    ∃ span ∈ spansFrom offset tokens, span.start = position ∨
      ∃ brace < position, Opens items span.start brace ∧ position < span.stop := by
  fun_induction spansFrom offset tokens with
  | case1 offset =>
    obtain ⟨keyword, name, rest, heq, -, -⟩ := hdeclares
    have hlength := congrArg List.length heq
    rw [List.drop_eq_nil_iff] at hdrop
    simp only [List.length_drop, List.length_cons] at hlength
    omega
  | case2 offset token tokens hname n ih =>
    have hdelimits := At.delimits ⟨hdrop, (isSome_declaredName?_iff hdrop).mp hname⟩
    rcases Nat.lt_or_ge position (offset + 1 + n) with hlt | hge
    · refine ⟨_, List.mem_cons_self, (Nat.eq_or_lt_of_le hposition).imp id fun hstart ↦ ?_⟩
      obtain ⟨keyword, name, rest, heq, his, -⟩ := hdeclares
      have hkeyword : items[position]? = some keyword := by
        rw [← List.head?_drop, heq, List.head?_cons]
      obtain ⟨brace, hbrace, hopens⟩ := hdelimits.keyword position keyword hstart hlt hkeyword his
      exact ⟨brace, hbrace, hopens, hlt⟩
    · obtain ⟨span, hspan, hcovers⟩ := ih (drop_add_of_drop hdrop n) hge
      exact ⟨span, List.mem_cons_of_mem _ hspan, hcovers⟩
  | case3 offset token tokens hname ih =>
    refine ih (drop_succ_of_drop hdrop) (Nat.lt_of_le_of_ne hposition ?_)
    rintro rfl
    exact hname ((isSome_declaredName?_iff hdrop).mpr hdeclares)

private theorem take_add_of_drop (hdrop : items.drop offset = token :: tokens) (n : Nat) :
    items.take (offset + 1 + n) = items.take offset ++ token :: tokens.take n := by
  rw [Nat.add_assoc, List.take_add, hdrop, Nat.add_comm 1 n, List.take_succ_cons]

private theorem length_take_of_drop (hdrop : items.drop offset = token :: tokens) :
    (items.take offset).length = offset := by
  have hlength := congrArg List.length hdrop
  rw [List.length_drop, List.length_cons] at hlength
  exact List.length_take_of_le (by omega)

/-- The excerpts lie where the spans say. -/
theorem located_locateFrom (finish : Finish) (hdrop : items.drop offset = tokens) :
    List.Forall₂ (Located ⟨items, finish⟩)
      (locateFrom finish (items.take offset).reverse tokens) (spansFrom offset tokens) := by
  fun_induction spansFrom offset tokens with
  | case1 =>
    rw [locateFrom]
    exact .nil
  | case2 offset token tokens hname n ih =>
    obtain ⟨name, hname⟩ := Option.isSome_iff_exists.mp hname
    obtain ⟨his, first, more, rfl, hkind, htext⟩ := declaredName?_eq_some_iff.mp hname
    -- The next one is looked for with the whole declaration among the tokens passed by.
    have hlater := ih (drop_add_of_drop hdrop n)
    have htake := take_add_of_drop hdrop n
    rw [htake, List.reverse_append] at hlater
    rw [locateFrom]
    simp only [hname]
    refine .cons ⟨⟨token, ?_, his, rfl⟩, ⟨first, ?_, hkind, htext.symm⟩, ?_, rfl⟩ hlater
    · rw [Option.mem_def, ← List.head?_drop, hdrop, List.head?_cons]
    · rw [Option.mem_def, ← List.head?_drop, drop_succ_of_drop hdrop, List.head?_cons]
    · have hlength := length_take_of_drop hdrop
      rw [htake, List.drop_append_of_le_length (by rw [hlength]; exact Nat.sub_le _ _),
        List.take_reverse, List.reverse_reverse, hlength]
  | case3 offset token tokens hname ih =>
    have hlater := ih (drop_succ_of_drop hdrop)
    rw [take_add_of_drop hdrop 0, List.take_zero, List.reverse_append] at hlater
    rw [locateFrom]
    rw [Option.not_isSome_iff_eq_none] at hname
    simp only [hname]
    exact hlater

/-- Spans that follow one another begin at different positions. -/
theorem nodup_starts (items : List Token) : ((spans items).map (·.start)).Nodup := by
  rw [List.nodup_iff_pairwise_ne, List.pairwise_map]
  refine (pairwise_spansFrom 0 items).imp_of_mem fun hspan _ hle ↦ ?_
  exact Nat.ne_of_lt (Nat.lt_of_lt_of_le (delimits_of_mem rfl hspan).start_lt_stop hle)

/-- Every protocol is located once. The spans of the located ones follow one another, and wherever a
declaration begins there begins a span, or else a declaration before it has a body that goes on. -/
theorem locate_spans (tokens : Tokens) :
    List.Forall₂ (Located tokens) (locate tokens) (spans tokens.items) ∧
    (∀ span ∈ spans tokens.items, Delimits tokens.items span.start span.stop) ∧
    (spans tokens.items).Pairwise (·.stop ≤ ·.start) ∧
    ∀ position, DeclaresAt tokens.items position →
      (∃! span, span ∈ spans tokens.items ∧ span.start = position) ∨
      ∃ span ∈ spans tokens.items, ∃ brace, Opens tokens.items span.start brace ∧
        brace < position ∧ position < span.stop := by
  have hdrop : tokens.items.drop 0 = tokens.items := List.drop_zero
  refine ⟨located_locateFrom tokens.finish hdrop, fun span ↦ delimits_of_mem rfl,
    pairwise_spansFrom 0 _, fun position hdeclares ↦ ?_⟩
  obtain ⟨span, hspan, hstart | ⟨brace, hbrace, hopens, hstop⟩⟩ :=
    exists_span_of_declares rfl (Nat.zero_le position) hdeclares
  · refine .inl ⟨span, ⟨hspan, hstart⟩, fun other ⟨hother, hstart'⟩ ↦ ?_⟩
    exact List.inj_on_of_nodup_map (nodup_starts _) hother hspan (hstart'.trans hstart.symm)
  · exact .inr ⟨span, hspan, brace, hopens, hbrace, hstop⟩

/-- A declaration without a body, one with another keyword in its body, and one that is never
closed. -/
example :
    (Tokens.scan
      "protocol A protocol B \x7b \x7b protocol C \x7d \x7d protocol D \x7b").toOption.map
      (spans ·.items) = some [⟨0, 2⟩, ⟨2, 10⟩, ⟨10, 13⟩] := by
  decide +kernel

end TestDouble.Excerpt
