import TestDouble.Proofs.SwiftType.Alike
import TestDouble.Proofs.SwiftType.Specifiers

/-!
# Types and their text

A type is read again from its text, and nothing of it is lost. The text is written on one line and
in one way, while the tokens that the type was read from may have had any line breaks and blanks
between them, so the text need not be theirs.
-/

namespace TestDouble

open Reader Token

namespace SwiftType

/-! ## Types without specifiers stand by themselves -/

section BeginsType

variable {tokens after : List Token} (h : BeginsType tokens)
include h

theorem BeginsType.exists_startsType :
    ∃ first rest, tokens = first :: rest ∧ startsType first = true := by
  cases h with
  | plain hbegins => exact hbegins.exists_startsType
  | led => exact ⟨_, _, rfl, rfl⟩

/-- The first word of a type is no specifier. -/
theorem BeginsType.stopsSpecifiers (hafter : EndsType after) :
    StopsSpecifiers (tokens ++ after) := by
  cases h with
  | plain hbegins =>
    have hmodifies : modifies ownershipSpecifiers (tokens ++ after) = false :=
      hbegins.modifies_eq_false hafter (by decide)
    cases hbegins with
    | @bracket text rest htext =>
      have hall : ∀ text ∈ ["(", "["], text ≠ "inout" := by decide
      refine ⟨?_, ?_, hmodifies⟩
      · rintro _ ⟨⟩
        simp
      · simp [hall text htext]
    | @name name rest hname _ =>
      have hkeyword : Spelled .keyword "inout".toList := by decide +kernel
      have hne : name ≠ "inout" := by
        rintro rfl
        cases hname.kind_eq hkeyword
      refine ⟨?_, ?_, hmodifies⟩
      · rintro _ ⟨⟩
        simp
      · simp [hne]
  | @led word rest hword hrest =>
    have hall : ∀ word ∈ ["some", "any"], word ≠ "inout" ∧ word ∉ ownershipSpecifiers := by decide
    obtain ⟨first, back, rfl, -⟩ := hrest.exists_startsType
    refine ⟨?_, ?_, ?_⟩
    · rintro _ ⟨⟩
      simp
    · simp [(hall word hword).1]
    · simp [modifies, (hall word hword).2]

theorem BeginsType.avoids : Avoids [")", ":"] tokens := by
  have hmarks : ∀ mark ∈ [")", ":"], (Kind.punctuation, mark) ∈ closedSymbols := by decide
  cases h with
  | plain hbegins =>
    cases hbegins with
    | @bracket text rest htext =>
      have hall : ∀ text ∈ ["(", "["], text ∉ [")", ":"] := by decide
      exact .of_cons (hall text htext)
    | @name name rest hname _ =>
      exact .of_cons fun hmem ↦ hname.ne_closedSymbol (hmarks name hmem) (by decide) rfl
  | @led word rest hword _ =>
    have hall : ∀ word ∈ ["some", "any"], word ∉ [")", ":"] := by decide
    exact .of_cons (hall word hword)

theorem BeginsType.avoids_append : Avoids [")", ":"] (tokens ++ after) := by
  obtain ⟨first, rest, rfl, -⟩ := h.exists_startsType
  exact .of_cons (h.avoids first rfl)

end BeginsType

/-! ## What begins with no label -/

theorem Begins.unlabelled {tokens after : List Token} (h : Begins tokens) (hafter : EndsType after)
    (hcolon : stands [":"] after = false) : Unlabelled (tokens ++ after) := by
  cases h with
  | @bracket text rest htext =>
    rw [List.cons_append]
    rcases rest ++ after with _ | ⟨second, back⟩
    · trivial
    · rintro ⟨⟩
  | @name name rest hname hrest =>
    have hsecond {second : Token} {back : List Token} (hstarts : startsType second = false)
        (hcolon : second.is ":" = false) :
        Unlabelled (inLine .identifier name :: second :: back) := by
      refine fun _ ↦ ⟨hcolon, fun hkind ↦ ?_⟩
      simp [startsType, hkind] at hstarts
    rcases rest with _ | ⟨second, rest⟩
    · rcases after with _ | ⟨second, after⟩
      · trivial
      · exact hsecond (hafter.not_startsType second rfl) (by simpa using hcolon)
    · obtain ⟨hstarts, hcolon⟩ := hrest.not_startsType second rfl
      exact hsecond hstarts hcolon

/-- A word in front makes no label either. -/
theorem Unlabelled.cons {first : Token} {rest : List Token} (h : Unlabelled rest)
    (hcolon : Avoids [")", ":"] rest) : Unlabelled (first :: rest) := by
  rcases rest with _ | ⟨second, rest⟩
  · trivial
  have hsecond : second.is ":" = false := by
    have hstands : stands [":"] (second :: rest) = false := hcolon.stands_eq_false (by decide)
    simpa using hstands
  refine fun _ ↦ ⟨hsecond, fun hkind ↦ ?_⟩
  rcases rest with _ | ⟨third, rest⟩
  · rfl
  · simpa using (h hkind).1

theorem BeginsType.unlabelled {tokens after : List Token} (h : BeginsType tokens)
    (hafter : EndsType after) (hcolon : stands [":"] after = false) :
    Unlabelled (tokens ++ after) := by
  cases h with
  | plain hbegins => exact hbegins.unlabelled hafter hcolon
  | @led word rest _ hrest =>
    exact (hrest.unlabelled hafter hcolon).cons (BeginsType.plain hrest).avoids_append

private theorem avoids_pieces {pieces : List Piece} (hsound : ∀ piece ∈ pieces, piece.Sound)
    {rest : List Token} (hrest : Avoids [")", ":"] rest) :
    Avoids [")", ":"] (pieces.flatMap Piece.tokens ++ rest) := by
  cases pieces with
  | nil => exact hrest
  | cons piece pieces =>
    obtain ⟨first, back, htokens, htext, -⟩ :=
      (hsound piece List.mem_cons_self).exists_tokens_eq_cons
    rw [List.flatMap_cons, htokens]
    exact .of_cons fun hmem ↦ htext (List.mem_cons_of_mem _ hmem)

private theorem unlabelled_pieces {pieces : List Piece} (hsound : ∀ piece ∈ pieces, piece.Sound)
    {rest : List Token} (hrest : Avoids [")", ":"] rest) (hunlabelled : Unlabelled rest) :
    Unlabelled (pieces.flatMap Piece.tokens ++ rest) := by
  induction pieces with
  | nil => exact hunlabelled
  | cons piece pieces ih =>
    obtain ⟨hfirst, hothers⟩ := List.forall_mem_cons.mp hsound
    obtain ⟨first, back, htokens, -, -, hback⟩ := hfirst.exists_tokens_eq_cons
    rw [List.flatMap_cons, htokens, List.append_assoc, List.cons_append]
    by_cases hkind : first.kind = .identifier
    · rw [hback hkind]
      exact (ih hothers).cons (avoids_pieces hothers hrest)
    · rcases back ++ (pieces.flatMap Piece.tokens ++ rest) with _ | ⟨second, tokens⟩
      · trivial
      · exact fun hidentifier ↦ absurd hidentifier hkind

/-! ## Types -/

/-- The type that is made of specifiers and a type without them. -/
def ofPieces (pieces : List Piece) (read : Bare) : SwiftType where
  base := read.base
  optionality := read.optionality
  attributes := (pieces.map Piece.specifier).filterMap Specifier.written?
  isInout := (pieces.map Piece.specifier).contains .inoutWord
  needsParens := read.needsParens
  signature? := read.signature?

private theorem ofPieces_canonical (pieces : List Piece) (read : Bare) :
    ofPieces (canonical pieces) read = ofPieces pieces read := by
  rw [ofPieces, ofPieces, filterMap_canonical, contains_inoutWord, contains_inoutWord]
  simp only [inoutWord_mem_canonical]

private theorem ofPieces_unbroken (pieces : List Piece) (read : Bare) :
    ofPieces (pieces.map Piece.unbroken) read = ofPieces pieces read := by
  have hmap : (pieces.map Piece.unbroken).map Piece.specifier = pieces.map Piece.specifier := by
    rw [List.map_map]
    exact List.map_congr_left fun piece _ ↦ piece.specifier_unbroken
  rw [ofPieces, ofPieces, hmap]

theorem Bare.Restored.ofPieces {read : Bare} {item : List Token} (h : read.Restored item)
    {pieces : List Piece} (hsound : ∀ piece ∈ canonical pieces, piece.Sound)
    (hspecified : ∀ after, EndsType after → Specified (item ++ after)
      ((canonical pieces).flatMap Piece.tokens) ((canonical pieces).map Piece.unbroken)) :
    (ofPieces pieces read).Restored ((canonical pieces).flatMap Piece.tokens ++ item) where
  spells tail htail := by
    have htext : (SwiftType.ofPieces pieces read).declared =
        String.join ((canonical pieces).map (·.text ++ " ")) ++ read.text := by
      rw [join_canonical]
      rfl
    rw [htext, String.toList_append]
    exact (spells_pieces hsound _).append (h.spells tail htail)
  reads depth hdepth scope after hafter := by
    rw [List.length_append] at hdepth
    have hspecifiers := (hspecified after hafter).reads (h.beginsType.stopsSpecifiers hafter) scope
    have hbare := h.reads depth (by omega) scope after hafter
    rw [List.append_assoc]
    refine hspecifiers.bind_iff.mpr (hbare.bind_iff.mpr (reads_tell_bind_iff.mpr ?_))
    refine reads_pure_iff.mpr ⟨?_, rfl⟩
    rw [← ofPieces_canonical, ← ofPieces_unbroken]
    rfl
  ne_nil := by
    obtain ⟨first, rest, rfl, -⟩ := h.beginsType.exists_startsType
    simp
  begins := avoids_pieces hsound h.beginsType.avoids
  unlabelled after hafter hcolon := by
    rw [List.append_assoc]
    exact unlabelled_pieces hsound h.beginsType.avoids_append
      (h.beginsType.unlabelled hafter hcolon)

theorem tame_nil : Tame [] where
  ordered _ _ _ _ hpart := by simp at hpart
  adjoined _ _ hpart := by simp at hpart
  plain _ _ _ _ hpart := by simp at hpart

section Rules

variable {whole : List Token} {type : Reader SwiftType} (htame : Tame whole)
  (hspelled : ∀ token ∈ whole, Spelled token.kind token.text.toList)
  (htype : ∀ scope tokens, Keeps whole (fun type ↦ ∃ item, type.Restored item) type scope tokens)
include htame hspelled htype

theorem keeps_annotated
    (hnone : ∀ scope tokens, Keeps [] (fun type ↦ ∃ item, type.Restored item) type scope tokens)
    (scope : Scope) (tokens : List Token) :
    Keeps whole (fun type ↦ ∃ item, type.Restored item) (annotated type) scope tokens := by
  intro type' rest hread
  obtain ⟨specifiers, mid, hspecifiers, hread⟩ := reads_bind_iff.mp hread
  obtain ⟨read, mid', hbare, hread⟩ := reads_bind_iff.mp hread
  have hpure := reads_tell_bind_iff.mp hread
  obtain ⟨rfl, rfl⟩ := reads_pure_iff.mp hpure
  obtain ⟨front, pieces, rfl, rfl, hspecified, hstops⟩ := exists_specified_of_reads hspecifiers
  obtain ⟨consumed, rfl, hgood⟩ := keeps_bare htame hspelled htype scope mid hbare
  -- The type itself takes a token, or else it would also be read with nothing taken at all.
  have hne : consumed ≠ [] := by
    rintro rfl
    obtain ⟨none, htokens, hgood⟩ := keeps_bare tame_nil (by simp) hnone scope _ hbare
    obtain rfl : [] = none := List.append_cancel_right htokens
    exact (hgood (List.infix_refl [])).1 rfl
  refine ⟨front ++ consumed, (List.append_assoc ..).symm, fun hpart ↦ ?_⟩
  obtain ⟨-, item, hitem, hround⟩ := hgood ((List.suffix_append front consumed).isInfix.trans hpart)
  obtain ⟨next, later, rfl⟩ := List.exists_cons_of_ne_nil hne
  have hfront : front ++ [next] <:+: whole := by
    refine List.IsInfix.trans (List.IsPrefix.isInfix ⟨later, ?_⟩) hpart
    rw [List.append_assoc]
    rfl
  have hsound :=
    hspecified.sound htame hspelled ((List.prefix_append front [next]).isInfix.trans hfront)
  refine ⟨_, hitem.ofPieces (fun piece hpiece ↦ hsound piece (mem_of_mem_canonical hpiece)) ?_⟩
  intro after hafter
  obtain ⟨first, back, rfl, hfirst⟩ := hitem.beginsType.exists_startsType
  refine hspecified.canonical htame hspelled hstops hfront ⟨first, rfl, hfirst⟩ fun hopens ↦ ?_
  rw [List.cons_append, stands_singleton_cons] at hopens hround
  rw [stands_singleton_cons] at hround
  exact hround hopens

end Rules

theorem keeps_readWithin {whole : List Token} (htame : Tame whole)
    (hspelled : ∀ token ∈ whole, Spelled token.kind token.text.toList) (depth : Nat)
    (scope : Scope) (tokens : List Token) :
    Keeps whole (fun type ↦ ∃ item, type.Restored item) (readWithin depth) scope tokens := by
  induction depth generalizing whole scope tokens with
  | zero => exact .ahead_bind .fail
  | succ depth ih =>
    exact keeps_annotated htame hspelled (ih htame hspelled) (ih tame_nil (by simp)) scope tokens

/-! ## Reading a type again -/

theorem reads_read_iff {scope : Scope} {tokens rest : List Token} {type : SwiftType} :
    Reads read scope tokens type rest ↔ Reads (readWithin tokens.length) scope tokens type rest :=
  ⟨fun ⟨hresult, hrest⟩ ↦ ⟨hresult, hrest⟩, fun ⟨hresult, hrest⟩ ↦ ⟨hresult, hrest⟩⟩

/-- The text of a type that can be restored is scanned, and the type is read from it. -/
theorem Restored.exists_scan {type : SwiftType} {item : List Token} (h : type.Restored item) :
    ∃ scanned, Tokens.scan type.declared = .ok scanned ∧
      ∀ scope, Reads read scope scanned.items type [] := by
  obtain ⟨last, tokens, htokens, hscan⟩ := (h.spells [] (by rintro _ ⟨⟩)).exists_scan 1
  have hend : EndsType [] := ⟨by rintro _ ⟨⟩, by rintro _ ⟨⟩⟩
  refine ⟨⟨tokens, ⟨last, false⟩⟩, hscan, fun scope ↦ ?_⟩
  have hread := h.reads_within le_rfl scope hend
  rw [List.append_nil] at hread
  have hread := reads_read_iff.mpr hread
  obtain ⟨rest, hread, hrest⟩ := read_alike.reads ⟨rfl, trivial⟩ htokens hread
  cases hrest
  exact hread

/-- Types survive being written out. What was read as a type was some tokens in front; if these are
tame, the text of the type is scanned, and reading takes all of it and gives the same type. -/
theorem read_declared {source : String} {stream : Tokens}
    (hstream : Tokens.scan source = .ok stream) {tokens rest : List Token}
    (htokens : tokens <:+ stream.items) {scope : Scope} {type : SwiftType}
    (hread : Reads read scope tokens type rest) :
    ∃ consumed, tokens = consumed ++ rest ∧ (Tame consumed →
      ∃ scanned, Tokens.scan type.declared = .ok scanned ∧
        ∀ scope, Reads read scope scanned.items type []) := by
  have hread := reads_read_iff.mp hread
  obtain ⟨consumed, rfl, -⟩ := keeps_readWithin tame_nil (by simp) _ scope tokens hread
  refine ⟨consumed, rfl, fun htame ↦ ?_⟩
  have hspelled : ∀ token ∈ consumed, Spelled token.kind token.text.toList := fun token htoken ↦
    spelled_of_mem hstream token (htokens.subset (List.mem_append_left rest htoken))
  obtain ⟨consumed', hconsumed, hgood⟩ := keeps_readWithin htame hspelled _ scope _ hread
  obtain rfl := List.append_cancel_right hconsumed
  obtain ⟨item, hitem⟩ := hgood (List.infix_refl _)
  exact hitem.exists_scan

private theorem exists_inout_of_specified {after front : List Token} {pieces : List Piece}
    (h : Specified after front pieces) (hinout : .inoutWord ∈ pieces) :
    ∃ token ∈ front, token.is "inout" = true := by
  induction h with
  | nil => cases hinout
  | @cons front back piece pieces hpiece _ ih =>
    rcases List.mem_cons.mp hinout with rfl | hlater
    · cases hpiece with
      | @inoutWord token _ htoken => exact ⟨token, by simp, htoken⟩
    · obtain ⟨token, hmem, htoken⟩ := ih hlater
      exact ⟨token, List.mem_append_right front hmem, htoken⟩

/-- Most types are tame at first sight. -/
theorem tame_of_forall {tokens : List Token}
    (h : ∀ token ∈ tokens, token.is "inout" = false ∧
      token.text ∉ "throws" :: attributesWithArguments) : Tame tokens where
  ordered front next scope specifiers hpart hread word hword hsub := by
    obtain ⟨front', pieces, hfront, rfl, hspecified, -⟩ := exists_specified_of_reads hread
    obtain rfl := List.append_cancel_right hfront
    obtain ⟨piece, hpiece, hinout⟩ := List.mem_map.mp (hsub.subset List.mem_cons_self)
    obtain rfl := specifier_eq_inoutWord_iff.mp hinout
    obtain ⟨token, hmem, htoken⟩ := exists_inout_of_specified hspecified hpiece
    have hnone := (h token (hpart.subset (List.mem_append_left _ hmem))).1
    exact absurd htoken (by simp [hnone])
  adjoined owner opener hpart howner := by
    have hnone := (h owner (hpart.subset List.mem_cons_self)).2
    exact absurd (List.mem_cons_of_mem _ howner) hnone
  plain owner opener inner closer hpart howner := by
    have hnone := (h owner (hpart.subset List.mem_cons_self)).2
    exact absurd howner hnone

/-- A closure over several lines, which is written on one. -/
theorem read_declared_closure :
    ∃ stream type scanned,
      Tokens.scan "@escaping (consuming Int,\n[ String:Any ]?)\nasync -> some\nP . Q" = .ok stream ∧
      Reads read ⟨⟨1, false⟩, {}⟩ stream.items type [] ∧ Tame stream.items ∧
      Tokens.scan type.declared = .ok scanned ∧
      ∀ scope, Reads read scope scanned.items type [] := by
  have hall : (Tokens.scan "@escaping (consuming Int,\n[ String:Any ]?)\nasync -> some\nP . Q"
      ).toOption.any (fun stream ↦ (read ⟨⟨1, false⟩, {}⟩ stream.items).result.isOk &&
        (read ⟨⟨1, false⟩, {}⟩ stream.items).rest.isEmpty && stream.items.all fun token ↦
          !token.is "inout" && token.text ∉ "throws" :: attributesWithArguments) = true := by
    decide +kernel
  obtain ⟨stream, hstream, hread⟩ := (Option.any_eq_true _ _).mp hall
  rw [Bool.and_eq_true, Bool.and_eq_true] at hread
  obtain ⟨⟨hresult, hrest⟩, htokens⟩ := hread
  have htame : Tame stream.items := tame_of_forall fun token htoken ↦ by
    simpa using List.all_eq_true.mp htokens token htoken
  have hscan := Except.toOption_eq_some_iff.mp hstream
  obtain ⟨type, htype⟩ := Except.isOk_iff_exists.mp hresult
  have hread : Reads read ⟨⟨1, false⟩, {}⟩ stream.items type [] :=
    ⟨htype, List.isEmpty_iff.mp hrest⟩
  obtain ⟨consumed, hconsumed, hagain⟩ := read_declared hscan (List.suffix_refl _) hread
  rw [List.append_nil] at hconsumed
  obtain ⟨scanned, hscanned, hreads⟩ := hagain (hconsumed ▸ htame)
  exact ⟨stream, type, scanned, hscan, hread, htame, hscanned, hreads⟩

end SwiftType

end TestDouble
