import TestDouble.Proofs.SwiftType.Primary

/-!
# Types with their suffixes

Suffixes follow a simple type directly, and so each of them ends the word before it. What may be
taken for one more suffix must not follow.
-/

namespace TestDouble

open Reader Token

/-! ## Joined texts -/

/-- Texts that each end the word before them are joined as their tokens are. -/
theorem Token.Spells.joined {texts : List String} {items : List (List Token)}
    (h : List.Forall₂ (fun text tokens ↦ ∀ tail, EndsWord tail →
      Spells tail text.toList tokens ∧ EndsWord (text.toList ++ tail)) texts items)
    {tail : List Char} (htail : EndsWord tail) :
    Spells tail (String.join texts).toList items.flatten ∧
      EndsWord ((String.join texts).toList ++ tail) := by
  induction h with
  | nil => exact ⟨.nil, htail⟩
  | cons hitem _ ih =>
    obtain ⟨hspells, hends⟩ := ih
    obtain ⟨hfirst, hends'⟩ := hitem _ hends
    rw [String.join_cons, String.toList_append, List.append_assoc]
    exact ⟨hfirst.append hspells, hends'⟩

/-- Texts with a space before each are joined as their tokens are. -/
theorem Token.Spells.spacedOut {texts : List String} {items : List (List Token)}
    (h : List.Forall₂ (fun text tokens ↦ ∀ tail, EndsWord tail → Spells tail text.toList tokens)
      texts items) {tail : List Char} (htail : EndsWord tail) :
    Spells tail (String.join (texts.map (" " ++ ·))).toList items.flatten ∧
      EndsWord ((String.join (texts.map (" " ++ ·))).toList ++ tail) := by
  refine Spells.joined (List.forall₂_map_left_iff.mpr (h.imp ?_)) htail
  intro text item hspells tail htail
  rw [String.toList_append]
  refine ⟨.blank (hspells tail htail), ?_⟩
  exact .of_cons (by decide +kernel)

namespace SwiftType

/-! ## Suffixes -/

/-- A suffix is restored by its text. -/
structure Suffix.Restored (read : Suffix) (tokens : List Token) : Prop extends
    Restores suffix (Avoids ["<"]) read.text (Turn.more read) tokens where
  ne_nil : tokens ≠ []
  begins : ∀ token ∈ tokens.head?, (token.kind, token.text) ∈ suffixSymbols

theorem Suffix.Restored.ofMarker {read : Suffix} {optionality : Optionality}
    (h : read.optionality? = some optionality) :
    read.Restored [inLine .operator optionality.marker] := by
  cases read with
  | optional =>
    obtain rfl := Option.some.inj h
    exact {
      spells _ _ := .lastSymbol (by decide)
      reads _ _ _ _ _ :=
        reads_ahead_bind_iff.mpr (reads_skip_bind_iff.mpr .pure)
      ne_nil := List.cons_ne_nil _ _
      begins := by rintro _ ⟨⟩; decide }
  | implicitlyUnwrapped =>
    obtain rfl := Option.some.inj h
    exact {
      spells _ _ := .lastSymbol (by decide)
      reads _ _ _ _ _ :=
        reads_ahead_bind_iff.mpr (reads_skip_bind_iff.mpr .pure)
      ne_nil := List.cons_ne_nil _ _
      begins := by rintro _ ⟨⟩; decide }
  | member => cases h

theorem Suffix.Restored.ofMember {name arguments : String} {item : List Token}
    (hname : Spelled .identifier name.toList)
    (harguments : Restores genericArguments (Avoids ["<"]) arguments arguments item)
    (hitem : Continues item) : Suffix.Restored (.member ("." ++ name ++ arguments))
      (inLine .punctuation "." :: inLine .identifier name :: item) where
  spells tail htail := by
    have hspells := harguments.spells tail htail
    have hends := hspells.endsWord htail hitem.head_endsWord
    have hword := Spells.word hname (by decide) hends hspells
    rw [Suffix.text, String.toList_append, String.toList_append, List.append_assoc]
    refine .dot ?_ hword
    rw [List.append_assoc]
    exact hname.ne_dot _
  reads depth hdepth scope after hafter := by
    have hread := harguments.reads depth (by simp at hdepth; omega) scope after hafter
    refine reads_ahead_bind_iff.mpr (reads_skip_bind_iff.mpr (reads_skip_bind_iff.mpr ?_))
    exact hread.bind_iff.mpr .pure
  ne_nil := List.cons_ne_nil _ _
  begins := by
    rintro _ ⟨⟩
    decide

theorem keeps_suffix {whole : List Token} {type : Reader SwiftType}
    (hspelled : ∀ token ∈ whole, Spelled token.kind token.text.toList)
    (htype : ∀ scope tokens, Keeps whole (fun type ↦ ∃ item, type.Restored item) type scope tokens)
    (scope : Scope) (tokens : List Token) :
    Keeps whole (Turn.All fun read ↦ ∃ item, Suffix.Restored read item) (suffix type) scope
      tokens := by
  refine .ahead_bind ?_
  rcases tokens with _ | ⟨token, tokens⟩
  · exact .pure trivial
  refine .ite (fun _ ↦ .pure trivial) fun _ ↦ .ite (fun _ ↦ .skip_bind (.pure fun _ ↦ ?_)) fun _ ↦
    .ite (fun _ ↦ .skip_bind (.pure fun _ ↦ ?_)) fun _ ↦ .ite (fun _ ↦ ?_) fun _ ↦ .pure trivial
  · exact ⟨_, .ofMarker rfl⟩
  · exact ⟨_, .ofMarker rfl⟩
  rcases tokens with _ | ⟨name, tokens⟩
  · exact .pure trivial
  refine .ite (fun hname ↦ .skip_bind (.skip_bind (.bind (keeps_genericArguments htype scope tokens)
    fun arguments mid ↦ .pure ?_))) fun _ ↦ .pure trivial
  rintro ⟨item, harguments, hcontinues⟩ hmem -
  have hspelled' : Spelled .identifier name.text.toList := hname ▸ hspelled name hmem
  exact ⟨_, .ofMember hspelled' harguments hcontinues⟩

/-! ## Components -/

theorem Suffix.Restored.continues {read : Suffix} {tokens : List Token} (h : read.Restored tokens) :
    Continues tokens :=
  fun token htoken ↦ List.mem_cons_of_mem _ (List.mem_cons_of_mem _ (h.begins token htoken))

theorem Suffix.Restored.spells_endsWord {read : Suffix} {tokens : List Token}
    (h : read.Restored tokens) (tail : List Char) (htail : EndsWord tail) :
    Spells tail read.text.toList tokens ∧ EndsWord (read.text.toList ++ tail) := by
  have hspells := h.spells tail htail
  exact ⟨hspells, hspells.endsWord htail h.continues.head_endsWord⟩

theorem Suffix.Restored.avoids {read : Suffix} {tokens : List Token} (h : read.Restored tokens)
    (after : List Token) : Avoids ["<"] (tokens ++ after) := by
  have hall : ∀ entry ∈ suffixSymbols, entry.2 ∉ ["<"] := by decide
  obtain ⟨first, rest, rfl⟩ := List.exists_cons_of_ne_nil h.ne_nil
  exact .of_cons (hall _ (h.begins first rfl))

theorem reads_suffix_stop {type : Reader SwiftType} {scope : Scope} {after : List Token}
    (h : Avoids suffixBeginnings after) : Reads (suffix type) scope after .stop after := by
  refine reads_ahead_bind_iff.mpr ?_
  rcases after with _ | ⟨token, after⟩
  · exact .pure
  · have htext := h token rfl
    simp only [suffixBeginnings, List.mem_cons, List.not_mem_nil, or_false, not_or] at htext
    simp [Token.is, htext]

/-- A type with its suffixes is restored by its text. -/
structure Component.Restored (read : Component) (tokens : List Token) : Prop extends
    Restores component (Avoids suffixBeginnings) read.fullText read tokens where
  begins : Begins tokens

theorem Primary.Restored.component {read : Primary} {item : List Token} {suffixes : List Suffix}
    {items : List (List Token)} (h : read.Restored item)
    (hsuffixes : List.Forall₂ Suffix.Restored suffixes items) :
    Component.Restored { read with suffixes } (item ++ items.flatten) where
  spells tail htail := by
    obtain ⟨hjoined, hends⟩ := Spells.joined (List.forall₂_map_left_iff.mpr
      (hsuffixes.imp fun suffix item hsuffix ↦ hsuffix.spells_endsWord)) htail
    rw [Component.fullText, String.toList_append]
    exact (h.spells _ hends).append hjoined
  reads depth hdepth scope after hafter := by
    rw [List.length_append] at hdepth
    -- Generic arguments would belong to the first part. No suffix begins like them.
    have hrest : Avoids ["<"] (items.flatten ++ after) := by
      cases hsuffixes with
      | nil => exact hafter.mono (by decide)
      | cons hsuffix =>
        rw [List.flatten_cons, List.append_assoc]
        exact hsuffix.avoids _
    have hprimary := h.reads depth (by omega) scope _ hrest
    have hlengths : ∀ item ∈ items, item.length ≤ depth + 1 := fun item hitem ↦
      (List.sublist_flatten_of_mem hitem).length_le.trans (by omega)
    have hparts := forall₂_and_of_forall_mem hsuffixes hlengths
    have hrepeated : Reads (repeated (suffix (readWithin depth))) scope (items.flatten ++ after)
        suffixes after := by
      have hends : Avoids ["<"] after := hafter.mono (by decide)
      refine .repeated_flatten (hparts.imp ?_) hends (reads_suffix_stop hafter)
      rintro read item ⟨hsuffix, hlength⟩
      exact ⟨hsuffix.ne_nil, hsuffix.avoids, hsuffix.reads depth hlength scope⟩
    rw [List.append_assoc]
    exact hprimary.bind_iff.mpr (hrepeated.bind_iff.mpr .pure)
  begins := by
    refine h.begins.append ?_
    cases hsuffixes with
    | nil =>
      rintro _ ⟨⟩
    | @cons _ item _ items hsuffix _ =>
      obtain ⟨first, rest, rfl⟩ := List.exists_cons_of_ne_nil hsuffix.ne_nil
      exact .of_cons (hsuffix.continues first rfl)

section Rules

variable {whole : List Token} {type : Reader SwiftType}
  (hspelled : ∀ token ∈ whole, Spelled token.kind token.text.toList)
  (htype : ∀ scope tokens, Keeps whole (fun type ↦ ∃ item, type.Restored item) type scope tokens)
include hspelled htype

theorem keeps_parts (scope : Scope) (tokens : List Token) :
    Keeps whole (fun read ↦ whole ≠ [] ∧ (∀ suffix ∈ read.suffixes, ∃ item, suffix.Restored item) ∧
      ∃ item, read.toPrimary.Restored item ∧ stands ["("] item = stands ["("] tokens)
      (component type) scope tokens :=
  .bind (keeps_primary hspelled htype scope tokens) fun _ _ ↦
    .bind (.repeated (keeps_suffix hspelled htype)) fun _ _ ↦ .pure fun hsuffixes ⟨hne, hprimary⟩ ↦
      ⟨hne, hsuffixes, hprimary⟩

theorem keeps_component (scope : Scope) (tokens : List Token) :
    Keeps whole (fun read ↦ whole ≠ [] ∧ ∃ item, read.Restored item ∧
      stands ["("] item = stands ["("] tokens) (component type) scope tokens := by
  refine (keeps_parts hspelled htype scope tokens).mono ?_
  rintro read ⟨hne, hsuffixes, item, hitem, hopens⟩
  obtain ⟨items, hitems⟩ := exists_forall₂_of_forall_exists hsuffixes
  refine ⟨hne, _, hitem.component hitems, ?_⟩
  obtain ⟨first, rest, rfl⟩ := List.exists_cons_of_ne_nil hitem.begins.ne_nil
  exact hopens

end Rules

end SwiftType

end TestDouble
