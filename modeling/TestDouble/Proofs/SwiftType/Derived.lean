import Mathlib.Data.List.Chain
import TestDouble.Proofs.SwiftType.RoundTrip

/-!
# Types made from a type

A test double keeps values of a type in fields of other types, which are the type with another
marker at its end. A marker goes to the suffix of what stands before it, so the type that it is put
on must end with a simple type and its suffixes. Whatever else was read, as a function type or a
composition, is put in parentheses first and is then a simple type itself.

In parentheses a function type still has its signature, and a marker behind them does not hide it.
A second marker does, and that is why a marker is exchanged for another and not put behind it.
-/

namespace TestDouble

open Reader Token

namespace SwiftType

/-! ## Exchanging the marker -/

/-- The type with another marker, in parentheses where it has to be. -/
def marked (type : SwiftType) (optionality : Optionality) : SwiftType where
  base := if type.needsParens then "(" ++ type.base ++ ")" else type.base
  optionality := optionality
  signature? := type.signature?

/-- The type inside one more optional. -/
def twice (type : SwiftType) : SwiftType where
  base := type.text
  optionality := .optional

/-- The type without what stands in front of it. -/
def unspecified (type : SwiftType) : SwiftType :=
  { type with attributes := [], isInout := false }

section Declared

variable {type : SwiftType}

theorem declared_eq_text (hattributes : type.attributes = []) (hinout : type.isInout = false) :
    type.declared = type.text := by
  rw [declared, hattributes, hinout, if_neg Bool.false_ne_true]
  change "" ++ "" ++ type.text = type.text
  rw [String.empty_append, String.empty_append]

private theorem declared_unspecified : type.unspecified.declared = type.text :=
  declared_eq_text rfl rfl

private theorem declared_twice : type.twice.declared = type.text ++ "?" :=
  declared_eq_text rfl rfl

private theorem declared_marked {optionality : Optionality} (h : optionality ≠ .required) :
    (type.marked optionality).declared = type.wrapped optionality := by
  rw [declared_eq_text rfl rfl, text]
  cases optionality with
  | required => contradiction
  | optional => cases hparens : type.needsParens <;> simp [wrapped, marked, hparens, toString]
  | implicitlyUnwrapped =>
    cases hparens : type.needsParens <;> simp [wrapped, marked, hparens, toString]

end Declared

/-! ## Components with a marker -/

private theorem parenthesizedSignature?_marker (primary : Primary) {suffix : Suffix}
    (h : suffix.optionality?.isSome) :
    parenthesizedSignature? { primary with suffixes := [suffix] } =
      parenthesizedSignature? { primary with suffixes := [] } := by
  rcases primary with ⟨text, _ | _ | ⟨⟨label, type, isVariadic⟩, _ | _⟩⟩
  · cases suffix <;> rfl
  · cases suffix <;> rfl
  · by_cases hlabel : label = ""
    · subst hlabel
      cases suffix with
      | optional => rfl
      | implicitlyUnwrapped => rfl
      | member => cases h
    · simp [parenthesizedSignature?, hlabel]
  · simp [parenthesizedSignature?]

namespace Component

variable {component : Component} {suffix : Suffix} {optionality : Optionality}

/-- The component with one more suffix. -/
def withSuffix (component : Component) (suffix : Suffix) : Component :=
  { component with suffixes := component.suffixes ++ [suffix] }

/-- The component as a type with a marker behind it. -/
def marked (component : Component) (optionality : Optionality) : Bare where
  base := component.fullText
  optionality := optionality
  signature? := if component.suffixes = [] then parenthesizedSignature? component else none

theorem bare_withSuffix (h : suffix.optionality? = some optionality) :
    (component.withSuffix suffix).bare = component.marked optionality := by
  have hsignature : parenthesizedSignature? (component.withSuffix suffix) =
      if component.suffixes = [] then parenthesizedSignature? component else none := by
    rcases component with ⟨primary, _ | ⟨first, _ | ⟨second, others⟩⟩⟩
    · rw [if_pos rfl]
      exact parenthesizedSignature?_marker primary (h ▸ rfl)
    · simp [withSuffix, parenthesizedSignature?]
    · simp [withSuffix, parenthesizedSignature?]
  rw [bare, hsignature]
  simp [withSuffix, h, marked]

theorem bare_of_unmarked (h : component.suffixes.getLast?.bind Suffix.optionality? = none) :
    component.bare = component.marked .required := by
  have hsignature : parenthesizedSignature? component =
      if component.suffixes = [] then parenthesizedSignature? component else none := by
    rcases component with ⟨primary, _ | ⟨first, _ | ⟨second, others⟩⟩⟩
    · rfl
    · cases first with
      | member => simp [parenthesizedSignature?]
      | optional => cases h
      | implicitlyUnwrapped => cases h
    · simp [parenthesizedSignature?]
  rw [bare, h, marked, ← hsignature]

/-- A component that is a type of its own has no marker, or one that can be taken off. -/
theorem bare_cases (component : Component) :
    component.bare = component.marked .required ∨
      ∃ (front : Component) (suffix : Suffix) (optionality : Optionality),
        component = front.withSuffix suffix ∧ suffix.optionality? = some optionality := by
  rcases hlast : component.suffixes.getLast?.bind Suffix.optionality? with _ | optionality
  · exact .inl (bare_of_unmarked hlast)
  · obtain ⟨suffix, hsuffix, hmarker⟩ := Option.bind_eq_some_iff.mp hlast
    let front : Component := { component with suffixes := component.suffixes.dropLast }
    refine .inr ⟨front, suffix, optionality, ?_, hmarker⟩
    rw [withSuffix, List.dropLast_append_getLast? suffix hsuffix]

/-- All parts of the component are restored by their texts. -/
structure Composed (component : Component) : Prop where
  primary : ∃ item, component.toPrimary.Restored item
  suffixes : ∀ suffix ∈ component.suffixes, ∃ item, suffix.Restored item

theorem Composed.exists_restored (h : component.Composed) : ∃ item, component.Restored item := by
  obtain ⟨item, hitem⟩ := h.primary
  obtain ⟨items, hitems⟩ := exists_forall₂_of_forall_exists h.suffixes
  exact ⟨_, hitem.component hitems⟩

theorem composed_withSuffix_iff (h : suffix.optionality? = some optionality) :
    (component.withSuffix suffix).Composed ↔ component.Composed := by
  constructor
  · intro hcomposed
    exact ⟨hcomposed.primary, fun _ hmem ↦ hcomposed.suffixes _ (List.mem_append_left _ hmem)⟩
  · intro hcomposed
    refine ⟨hcomposed.primary, List.forall_mem_append.mpr ⟨hcomposed.suffixes, ?_⟩⟩
    exact List.forall_mem_singleton.mpr ⟨_, .ofMarker h⟩

end Component

/-! ## Types in parentheses -/

/-- The type in parentheses, which is a component. -/
def enclosed (type : SwiftType) : Component where
  text := "(" ++ type.declared ++ ")"
  elements? := some [⟨"", type, false⟩]
  suffixes := []

theorem text_element (type : SwiftType) : Element.text ⟨"", type, false⟩ = type.declared := by
  rw [Element.text, String.empty_append, if_neg Bool.false_ne_true, String.append_empty]

private theorem fullText_enclosed (type : SwiftType) :
    type.enclosed.fullText = "(" ++ type.declared ++ ")" :=
  String.append_empty

theorem signature_enclosed {type : SwiftType} (h : type.optionality = .required) :
    parenthesizedSignature? type.enclosed = type.signature? := by
  simp [parenthesizedSignature?, enclosed, isOptional, h]

theorem Restored.composed_enclosed {type : SwiftType} {item : List Token} (h : type.Restored item) :
    type.enclosed.Composed where
  primary := by
    have helement : Element.Restored ⟨"", type, false⟩ (item ++ []) := h.element .none false
    have htuple := Primary.Restored.ofTuple helement .nil
    rw [List.map_singleton, String.intercalate_singleton, text_element] at htuple
    exact ⟨_, htuple⟩
  suffixes _ hmem := (List.not_mem_nil hmem).elim

/-! ## What a marker is put on -/

namespace Bare

variable {read : Bare} {item : List Token}

/-- What was read is a component, or it is put in parentheses. -/
def TakesMarker (read : Bare) : Prop :=
  (∃ component : Component, component.Composed ∧ read = component.bare) ∨
    read.needsParens = true ∧ read.optionality = .required

/-- The type that has no specifiers. -/
def type (read : Bare) : SwiftType :=
  ofPieces [] read

theorem Restored.type (h : read.Restored item) : read.type.Restored item :=
  have hsound : ∀ piece ∈ canonical [], piece.Sound := fun _ hmem ↦ (List.not_mem_nil hmem).elim
  h.ofPieces hsound fun _ _ ↦ .nil

private theorem marked_enclosed (hparens : read.type.needsParens = true)
    (hrequired : read.type.optionality = .required) (optionality : Optionality) :
    (read.type.enclosed.marked optionality).type = read.type.marked optionality := by
  have hdeclared : read.type.declared = read.type.base := by
    rw [declared_eq_text rfl rfl, SwiftType.text, hrequired, wrapped]
  have hempty : read.type.enclosed.suffixes = [] := rfl
  rw [Component.marked, fullText_enclosed, if_pos hempty, signature_enclosed hrequired, hdeclared,
    SwiftType.marked, if_pos hparens]
  rfl

/-- There is a component that all markers are put on. -/
theorem TakesMarker.exists_marked (h : read.TakesMarker) (hitem : read.Restored item) :
    ∃ component : Component, component.Composed ∧
      ∀ optionality, (component.marked optionality).type = read.type.marked optionality := by
  rcases h with ⟨component, hcomposed, rfl⟩ | ⟨hparens, hrequired⟩
  · -- A marker that is already there is taken off, and the new one stands in its place.
    rcases component.bare_cases with hbare | ⟨front, suffix, optionality, rfl, hmarker⟩
    · exact ⟨component, hcomposed, fun optionality ↦ by rw [hbare]; rfl⟩
    · refine ⟨front, (Component.composed_withSuffix_iff hmarker).mp hcomposed, fun optionality ↦ ?_⟩
      rw [Component.bare_withSuffix hmarker]
      rfl
  · exact ⟨read.type.enclosed, hitem.type.composed_enclosed, marked_enclosed hparens hrequired⟩

end Bare

theorem Component.Composed.exists_restored_marked {component : Component}
    (h : component.Composed) {optionality : Optionality} (hne : optionality ≠ .required) :
    ∃ item, (component.marked optionality).type.Restored item := by
  obtain ⟨suffix, hmarker⟩ : ∃ suffix : Suffix, suffix.optionality? = some optionality := by
    cases optionality with
    | required => contradiction
    | optional => exact ⟨.optional, rfl⟩
    | implicitlyUnwrapped => exact ⟨.implicitlyUnwrapped, rfl⟩
  obtain ⟨item, hitem⟩ := ((Component.composed_withSuffix_iff hmarker).mpr h).exists_restored
  rw [← Component.bare_withSuffix hmarker]
  exact ⟨item, hitem.alone.type⟩

/-- Behind a marker, one more goes without parentheses. -/
theorem Bare.TakesMarker.exists_restored_twice {read : Bare} (h : read.TakesMarker)
    (hoptional : read.type.isOptional = true) : ∃ item, read.type.twice.Restored item := by
  rcases h with ⟨component, hcomposed, rfl⟩ | ⟨-, hrequired⟩
  swap
  · simp [isOptional, Bare.type, ofPieces, hrequired] at hoptional
  have hne : component.suffixes ≠ [] := by
    rcases component.bare_cases with hbare | ⟨front, suffix, _, rfl, -⟩
    · rw [hbare] at hoptional
      cases hoptional
    · exact List.append_ne_nil_of_right_ne_nil _ (List.cons_ne_nil _ _)
  -- With two suffixes there is no signature, whatever the parentheses hold.
  have hmarked : (component.marked .optional).type = component.bare.type.twice := by
    have htext : component.bare.type.text = component.fullText := component.text_bare
    rw [Component.marked, if_neg hne, twice, htext]
    rfl
  rw [← hmarked]
  exact hcomposed.exists_restored_marked (by decide)

section Rules

variable {whole : List Token} {type : Reader SwiftType} (htame : Tame whole)
  (hspelled : ∀ token ∈ whole, Spelled token.kind token.text.toList)
  (htype : ∀ scope tokens, Keeps whole (fun type ↦ ∃ item, type.Restored item) type scope tokens)
include htame hspelled htype

theorem keeps_takesMarker_bareAfter (lead : String) (scope : Scope) (tokens : List Token) :
    Keeps whole Bare.TakesMarker (bareAfter type lead) scope tokens := by
  have hparens (base : String) (signature? : Option (Signature SwiftType)) :
      Bare.TakesMarker { base, needsParens := true, signature? } := .inr ⟨rfl, rfl⟩
  refine .sees_bind (.bind (keeps_parts hspelled htype scope tokens) fun first mid ↦
    .ahead_bind (.ite (fun hfunction ↦ ?_) fun _ ↦ .sees_bind (.ite (fun hpart ↦ ?_) fun _ ↦
      .ite (fun _ ↦ .pure fun _ ↦ hparens _ _) fun _ ↦ .pure ?_)))
  · exact .bind (.repeated (keeps_functionEffect htame hspelled)) fun effects mid ↦ .bind .expect
      fun arrow mid ↦ .bind (htype scope mid) fun result mid ↦ .pure fun _ _ _ _ ↦ hparens _ _
  · exact .bind (keeps_partTurns hspelled htype hpart) fun others mid ↦ .pure fun _ _ ↦ hparens _ _
  · rintro ⟨-, hsuffixes, item, hitem, -⟩
    exact .inl ⟨first, ⟨⟨item, hitem⟩, hsuffixes⟩, rfl⟩

theorem keeps_takesMarker (scope : Scope) (tokens : List Token) :
    Keeps whole Bare.TakesMarker (bare type) scope tokens := by
  have hlead : Keeps whole (fun _ ↦ True) lead scope tokens := by
    refine .ahead_bind (.ite (fun hmodifies ↦ ?_) fun _ ↦ .pure trivial)
    rcases tokens with _ | ⟨token, tokens⟩
    · cases hmodifies
    · exact .next?_bind (.pure fun _ ↦ trivial)
  rw [bare_eq]
  exact .bind hlead fun lead mid ↦
    (keeps_takesMarker_bareAfter htame hspelled htype lead scope mid).mono fun _ hread _ ↦ hread

theorem keeps_unspecified (scope : Scope) (tokens : List Token) :
    Keeps whole (fun type ↦ ∃ (read : Bare) (item : List Token), read.TakesMarker ∧
      read.Restored item ∧ type.unspecified = read.type) (annotated type) scope tokens := by
  have hspecifiers : Keeps whole (fun _ ↦ True) (repeated specifier) scope tokens := by
    intro specifiers rest hread
    obtain ⟨front, _, rfl, -⟩ := exists_specified_of_reads hread
    exact ⟨front, rfl, fun _ ↦ trivial⟩
  have hbare (scope : Scope) (tokens : List Token) :=
    (keeps_bare htame hspelled htype scope tokens).and
      (keeps_takesMarker htame hspelled htype scope tokens)
  refine .bind hspecifiers fun specifiers mid ↦ .bind (hbare scope mid) fun read mid ↦
    .tell_bind (.pure ?_)
  rintro ⟨⟨-, item, hitem, -⟩, hread⟩ -
  exact ⟨read, item, hread, hitem, rfl⟩

end Rules

theorem keeps_readWithin_unspecified {whole : List Token} (htame : Tame whole)
    (hspelled : ∀ token ∈ whole, Spelled token.kind token.text.toList) (depth : Nat)
    (scope : Scope) (tokens : List Token) :
    Keeps whole (fun type ↦ ∃ (read : Bare) (item : List Token), read.TakesMarker ∧
      read.Restored item ∧ type.unspecified = read.type) (readWithin depth) scope tokens := by
  cases depth with
  | zero => exact .ahead_bind .fail
  | succ depth =>
    exact keeps_unspecified htame hspelled (keeps_readWithin htame hspelled depth) scope tokens

/-! ## Reading the types of fields -/

/-- The text is scanned, and reading it takes all of it and gives the type. -/
def ReadsBack (source : String) (type : SwiftType) : Prop :=
  ∃ scanned, Tokens.scan source = .ok scanned ∧ ∀ scope, Reads read scope scanned.items type []

section ReadsBack

variable {type : SwiftType} {item : List Token}

theorem Restored.readsBack (h : type.Restored item) : ReadsBack type.declared type :=
  h.exists_scan

variable {bare : Bare} (h : bare.TakesMarker) (hitem : bare.Restored item)
  (htype : type.unspecified = bare.type)
include htype

include h hitem in
theorem readsBack_wrapped {optionality : Optionality} (hne : optionality ≠ .required) :
    ReadsBack (type.wrapped optionality) (type.marked optionality) := by
  obtain ⟨component, hcomposed, hmarked⟩ := h.exists_marked hitem
  obtain ⟨item', hitem'⟩ := hcomposed.exists_restored_marked hne
  have heq : (component.marked optionality).type = type.marked optionality := by
    rw [hmarked, ← htype]
    rfl
  rw [← declared_marked hne, ← heq]
  exact hitem'.readsBack

include hitem in
theorem readsBack_text : ReadsBack type.text type.unspecified := by
  rw [← declared_unspecified, htype]
  exact hitem.type.readsBack

include h in
theorem readsBack_twice (hoptional : type.isOptional = true) :
    ReadsBack (type.text ++ "?") type.twice := by
  have htwice : type.twice = bare.type.twice := by
    rw [← htype]
    rfl
  obtain ⟨item', hitem'⟩ := h.exists_restored_twice (htype ▸ hoptional)
  rw [← declared_twice, htwice]
  exact hitem'.readsBack

end ReadsBack

/-- The types of fields are types. What was read as a type was some tokens in front; if these are
tame, then each text that is made from the type is scanned and read to its end, and the result has
the marker that the text was given. -/
theorem read_derived {source : String} {stream : Tokens}
    (hstream : Tokens.scan source = .ok stream) {tokens rest : List Token}
    (htokens : tokens <:+: stream.items) {scope : Scope} {type : SwiftType}
    (hread : Reads read scope tokens type rest) :
    ∃ consumed, tokens = consumed ++ rest ∧ (Tame consumed →
      ReadsBack type.stub (type.marked .implicitlyUnwrapped) ∧
      ReadsBack type.storage
        (if type.isOptional then type.marked .optional else type.unspecified) ∧
      ReadsBack type.moreOptional
        (if type.isOptional then type.twice else type.marked .optional)) := by
  have hread := reads_read_iff.mp hread
  -- What was consumed is known before it is known to be tame.
  obtain ⟨consumed, rfl, -⟩ := keeps_readWithin tame_nil (by simp) _ scope tokens hread
  refine ⟨consumed, rfl, fun htame ↦ ?_⟩
  have hspelled : ∀ token ∈ consumed, Spelled token.kind token.text.toList := fun token htoken ↦
    spelled_of_mem hstream token (htokens.subset (List.mem_append_left rest htoken))
  obtain ⟨consumed', hconsumed, hgood⟩ :=
    keeps_readWithin_unspecified htame hspelled _ scope _ hread
  obtain rfl := List.append_cancel_right hconsumed
  obtain ⟨bare, item, hbare, hitem, htype⟩ := hgood (List.infix_refl _)
  have hwrapped {optionality : Optionality} (hne : optionality ≠ .required) :
      ReadsBack (type.wrapped optionality) (type.marked optionality) :=
    readsBack_wrapped hbare hitem htype hne
  refine ⟨hwrapped (by decide), ?_, ?_⟩
  · rw [storage]
    split
    · exact hwrapped (by decide)
    · next hrequired =>
      have htext : type.wrapped .required = type.text := by
        simp_all [isOptional, text]
      rw [htext]
      exact readsBack_text hitem htype
  · rw [moreOptional]
    split
    · next hoptional => exact readsBack_twice hbare htype hoptional
    · exact hwrapped (by decide)

/-! ## Tokens that are tame at first sight -/

/-- The specifier that a token is by itself. -/
def tokenSpecifier (token : Token) : Specifier :=
  if token.kind ≠ .attribute ∧ token.is "inout" = true then .inoutWord else .written token.text

private theorem map_specifier_eq {after front : List Token} {pieces : List Piece}
    (h : Specified after front pieces)
    (hnone : ∀ token ∈ front, token.text ∉ attributesWithArguments) :
    pieces.map Piece.specifier = front.map tokenSpecifier := by
  induction h with
  | nil => rfl
  | @cons front back piece pieces hpiece _ ih =>
    obtain ⟨hfront, hback⟩ := List.forall_mem_append.mp hnone
    rw [List.map_cons, List.map_append, ih hback, ← List.singleton_append]
    congr 1
    cases hpiece with
    | attributed hkind => simp [tokenSpecifier, Piece.specifier, hkind]
    | arguments _ hname => exact absurd hname (hfront _ List.mem_cons_self)
    | inoutWord hkind hinout => simp [tokenSpecifier, Piece.specifier, hkind, hinout]
    | ownership hkind hinout => simp [tokenSpecifier, Piece.specifier, hinout]

/-- Tokens are tame if ownership does not come after `inout` and nothing has arguments. -/
theorem tame_of_pairwise {tokens : List Token}
    (hordered : tokens.Pairwise fun first second ↦
      first.is "inout" = true → second.text ∉ ownershipSpecifiers)
    (hattributes : ∀ token ∈ tokens, token.text ∉ attributesWithArguments)
    (hthrows : tokens.IsChain fun owner opener ↦ owner.text = "throws" → opener.is "(" = false) :
    Tame tokens where
  ordered front next scope specifiers hpart hread word hword hsub := by
    obtain ⟨front', pieces, hfront, rfl, hspecified, -⟩ := exists_specified_of_reads hread
    obtain rfl := List.append_cancel_right hfront
    have hfront : front.Sublist tokens :=
      (List.sublist_append_left front [next]).trans hpart.sublist
    rw [map_specifier_eq hspecified fun token htoken ↦ hattributes token (hfront.subset htoken),
      List.sublist_map_iff] at hsub
    -- The two specifiers come from two tokens in the same order.
    obtain ⟨pair, hpair, hmap⟩ := hsub
    have hpairwise := hordered.sublist (hpair.trans hfront)
    obtain ⟨first, others, rfl, hfirst, hothers⟩ := List.map_eq_cons_iff.mp hmap.symm
    obtain ⟨second, rfl, hsecond⟩ := List.map_eq_singleton_iff.mp hothers
    have hinout : first.is "inout" = true := by
      rw [tokenSpecifier] at hfirst
      split at hfirst
      · next h => exact h.2
      · cases hfirst
    have htext : second.text = word := by
      rw [tokenSpecifier] at hsecond
      split at hsecond
      · cases hsecond
      · exact Specifier.written.inj hsecond
    have hrel := List.rel_of_pairwise_cons hpairwise (List.mem_singleton_self second) hinout
    exact hrel (htext ▸ hword)
  adjoined owner opener hpart howner :=
    absurd howner (hattributes owner (hpart.subset List.mem_cons_self))
  plain owner opener inner closer hpart howner hopener := by
    have hchain : (owner :: opener :: inner ++ [closer]).IsChain fun owner opener ↦
        owner.text = "throws" → opener.is "(" = false := hthrows.infix hpart
    rcases List.mem_cons.mp howner with hthrow | hattribute
    · rw [hchain.rel hthrow] at hopener
      cases hopener
    · exact absurd hattribute (hattributes owner (hpart.subset List.mem_cons_self))

/-- A function type with specifiers inside and outside, whose fields have it in parentheses. -/
theorem read_derived_function :
    ∃ stream type,
      Tokens.scan "@Sendable (consuming Int, inout [String]?)\nthrows -> any P & Q" = .ok stream ∧
      Reads read ⟨⟨1, false⟩, {}⟩ stream.items type [] ∧ Tame stream.items ∧
      type.stub = "((consuming Int, inout [String]?) throws -> any P & Q)!" ∧
      ReadsBack type.stub (type.marked .implicitlyUnwrapped) ∧
      ReadsBack type.storage type.unspecified ∧
      ReadsBack type.moreOptional (type.marked .optional) := by
  have hall : (Tokens.scan "@Sendable (consuming Int, inout [String]?)\nthrows -> any P & Q"
      ).toOption.any (fun stream ↦ (read ⟨⟨1, false⟩, {}⟩ stream.items).result.toOption.any
          (fun type ↦ !type.isOptional &&
            type.stub = "((consuming Int, inout [String]?) throws -> any P & Q)!") &&
        (read ⟨⟨1, false⟩, {}⟩ stream.items).rest.isEmpty &&
        decide (stream.items.Pairwise fun first second ↦
          first.is "inout" = true → second.text ∉ ownershipSpecifiers) &&
        stream.items.all (fun token ↦ token.text ∉ attributesWithArguments) &&
        decide (stream.items.IsChain fun owner opener ↦
          owner.text = "throws" → opener.is "(" = false)) = true := by
    decide +kernel
  obtain ⟨stream, hstream, hall⟩ := (Option.any_eq_true _ _).mp hall
  simp only [Bool.and_eq_true, decide_eq_true_eq, List.all_eq_true] at hall
  obtain ⟨⟨⟨⟨hresult, hrest⟩, hordered⟩, hattributes⟩, hthrows⟩ := hall
  obtain ⟨type, htype, hstub⟩ := (Option.any_eq_true _ _).mp hresult
  simp only [Bool.and_eq_true, Bool.not_eq_true', decide_eq_true_eq] at hstub
  have hscan := Except.toOption_eq_some_iff.mp hstream
  have htame : Tame stream.items := tame_of_pairwise hordered hattributes hthrows
  have hread : Reads read ⟨⟨1, false⟩, {}⟩ stream.items type [] :=
    ⟨Except.toOption_eq_some_iff.mp htype, List.isEmpty_iff.mp hrest⟩
  obtain ⟨consumed, hconsumed, hderived⟩ := read_derived hscan (List.infix_refl _) hread
  rw [List.append_nil] at hconsumed
  obtain ⟨hreadStub, hreadStorage, hreadMore⟩ := hderived (hconsumed ▸ htame)
  rw [hstub.1] at hreadStorage hreadMore
  exact ⟨stream, type, hscan, hread, htame, hstub.2, hreadStub, hreadStorage, hreadMore⟩

end SwiftType

end TestDouble
