import TestDouble.Proofs.Protocol.Spelling
import TestDouble.Proofs.Text.Split

/-!
# The ends of the texts of types

The text of a type without specifiers has no blanks at its ends: it begins with a bracket or a name,
and whatever prolongs it ends in a bracket, a mark or a name.
-/

namespace TestDouble

open Reader Token
open Text (Solid)

/-! ## Names -/

private theorem Token.isBlank_of_isNameRest {c : Char} (h : isNameRest c = true) :
    Text.isBlank c = false := by
  rw [← Bool.not_eq_true]
  intro hblank
  rw [isNameRest_eq_false (endsWord_of_isBlank hblank)] at h
  cases h

/-- An identifier has no blanks at its ends. -/
theorem Token.Spelled.solid {text : List Char} (h : Spelled .identifier text) : Solid text := by
  obtain ⟨c, cs, rfl, -⟩ := id h
  rcases h.starts (by decide) with hstart | ⟨-, rfl, name, -, -, rfl⟩
  · have hall : ∀ d ∈ c :: cs, isNameRest d = true := List.forall_mem_cons.mpr
      ⟨isNameRest_of_isNameStart hstart, ((spelled_cons_iff hstart).mp h).1⟩
    exact ⟨⟨c, rfl, isBlank_of_isNameRest (hall c List.mem_cons_self)⟩,
      ⟨_, List.getLast?_eq_some_getLast (List.cons_ne_nil c cs),
        isBlank_of_isNameRest (hall _ (List.getLast_mem _))⟩⟩
  · have hquote : Solid ['\x60'] := Text.solid_singleton (by decide +kernel)
    exact hquote.enclose hquote name

namespace SwiftType

/-! ## What prolongs a type -/

/-- A text without blanks at its ends stays one with this text behind it. -/
def Prolongs (text : String) : Prop :=
  ∀ ⦃front : List Char⦄, Solid front → Solid (front ++ text.toList)

theorem prolongs_empty : Prolongs "" := by
  intro front hfront
  rwa [String.toList_empty, List.append_nil]

theorem Prolongs.of_solid {text : String} (h : Solid text.toList) : Prolongs text :=
  fun _ hfront ↦ hfront.append h

private theorem prolongs_join {texts : List String} (h : ∀ text ∈ texts, Prolongs text) :
    Prolongs (String.join texts) := by
  induction texts with
  | nil => exact prolongs_empty
  | cons text texts ih =>
    obtain ⟨htext, htexts⟩ := List.forall_mem_cons.mp h
    intro front hfront
    rw [String.join_cons, String.toList_append, ← List.append_assoc]
    exact ih htexts (htext hfront)

/-- The marks at the ends of texts. -/
def endMarks : List String :=
  ["<", ">", "(", ")", "[", "]", "?", "!", "."]

private theorem solid_mark {mark : String} (h : mark ∈ endMarks) : Solid mark.toList := by
  have hall : ∀ mark ∈ endMarks, mark.toList.head?.any (fun c ↦ mark.toList = [c] ∧
      Text.isBlank c = false) = true := by
    decide +kernel
  obtain ⟨c, -, hmark⟩ := (Option.any_eq_true _ _).mp (hall mark h)
  obtain ⟨heq, hblank⟩ := of_decide_eq_true hmark
  rw [heq]
  exact Text.solid_singleton hblank

theorem solid_enclosed {opener closer : String} (hopener : opener ∈ endMarks)
    (hcloser : closer ∈ endMarks) (inner : String) : Solid (opener ++ inner ++ closer).toList := by
  rw [String.toList_append, String.toList_append]
  exact (solid_mark hopener).enclose (solid_mark hcloser) inner.toList

/-! ## Rules -/

section Rules

variable {whole : List Token} {type : Reader SwiftType} {scope : Scope} {tokens rest : List Token}

private theorem solid_of_reads_tuple {primary : Primary}
    (h : Reads (tuple type) scope tokens primary rest) : Solid primary.text.toList := by
  simp only [tuple, reads_bind_iff, reads_pure_iff] at h
  obtain ⟨opener, _, -, elements, _, -, closer, _, -, rfl, -⟩ := h
  exact solid_enclosed (by decide) (by decide) _

private theorem solid_of_reads_collection {primary : Primary}
    (h : Reads (collection type) scope tokens primary rest) : Solid primary.text.toList := by
  obtain ⟨_, _, -, h⟩ := reads_bind_iff.mp h
  obtain ⟨first, _, -, h⟩ := reads_bind_iff.mp h
  obtain ⟨colon, _, -, h⟩ := reads_bind_iff.mp h
  rcases reads_ite_iff.mp h with ⟨-, h⟩ | ⟨-, h⟩
  · obtain ⟨value, _, -, h⟩ := reads_bind_iff.mp h
    obtain ⟨_, _, -, h⟩ := reads_bind_iff.mp h
    obtain ⟨rfl, -⟩ := reads_pure_iff.mp h
    have hsolid : Solid ("[" ++ (first.declared ++ ": " ++ value.declared) ++ "]").toList :=
      solid_enclosed (by decide) (by decide) _
    rwa [← String.append_assoc, ← String.append_assoc] at hsolid
  · obtain ⟨_, _, -, h⟩ := reads_bind_iff.mp h
    obtain ⟨rfl, -⟩ := reads_pure_iff.mp h
    exact solid_enclosed (by decide) (by decide) _

variable (htype : LeavesSuffix type)
include htype

theorem keeps_genericArguments_prolongs :
    Keeps whole Prolongs (genericArguments type) scope tokens := by
  have hsuffix := leavesSuffix_receding
  refine .ahead_bind (.ite (fun _ ↦ ?_) fun _ ↦ .pure prolongs_empty)
  exact .past hsuffix.skip fun _ _ ↦ .past (hsuffix.separated htype) fun arguments _ ↦
    .past (hsuffix.expect _ _) fun _ _ ↦
      .pure (.of_solid (solid_enclosed (by decide) (by decide) _))

variable (hspelled : ∀ token ∈ whole, Spelled token.kind token.text.toList)
include hspelled

theorem keeps_primary_solid :
    Keeps whole (fun primary ↦ Solid primary.text.toList) (primary type) scope tokens := by
  have hsuffix := leavesSuffix_receding
  refine .ahead_bind ?_
  rcases tokens with _ | ⟨token, tokens⟩
  · exact .ahead_bind .fail
  refine .ite (fun _ ↦ ?_) fun _ ↦ .ite (fun _ ↦ ?_) fun _ ↦ .ite (fun hkind ↦ ?_)
    fun _ ↦ .ahead_bind .fail
  · exact ((Keeps.of_leavesSuffix (hsuffix.tuple htype)).and_of_reads
      fun _ _ ↦ solid_of_reads_tuple).mono fun _ ↦ And.left
  · exact ((Keeps.of_leavesSuffix (hsuffix.collection htype)).and_of_reads
      fun _ _ ↦ solid_of_reads_collection).mono fun _ ↦ And.left
  -- A name has no blanks, and its arguments end with a bracket.
  · refine .skip_bind (.bind (keeps_genericArguments_prolongs htype) fun arguments _ ↦ .pure ?_)
    intro harguments htoken
    have hname : Spelled .identifier token.text.toList := hkind ▸ hspelled token htoken
    rw [String.toList_append]
    exact harguments hname.solid

theorem keeps_suffix_prolongs :
    Keeps whole (Turn.All fun suffix ↦ Prolongs suffix.text) (suffix type) scope tokens := by
  refine .ahead_bind ?_
  rcases tokens with _ | ⟨token, tokens⟩
  · exact .pure trivial
  refine .ite (fun _ ↦ .pure trivial) fun _ ↦ .ite (fun _ ↦ .skip_bind (.pure fun _ ↦ ?_)) fun _ ↦
    .ite (fun _ ↦ .skip_bind (.pure fun _ ↦ ?_)) fun _ ↦ .ite (fun _ ↦ ?_) fun _ ↦ .pure trivial
  · exact .of_solid (solid_mark (by decide))
  · exact .of_solid (solid_mark (by decide))
  rcases tokens with _ | ⟨name, tokens⟩
  · exact .pure trivial
  refine .ite (fun hkind ↦ .skip_bind (.skip_bind (.bind (keeps_genericArguments_prolongs htype)
    fun arguments _ ↦ .pure ?_))) fun _ ↦ .pure trivial
  intro harguments htoken _ front hfront
  have hname : Spelled .identifier name.text.toList := hkind ▸ hspelled name htoken
  change Solid (front ++ ("." ++ name.text ++ arguments).toList)
  rw [String.toList_append, String.toList_append, ← List.append_assoc]
  exact harguments (hfront.append ((solid_mark (by decide)).append hname.solid))

/-- The text of a type without specifiers has no blanks at its ends. -/
theorem keeps_component_solid :
    Keeps whole (fun part ↦ Solid part.fullText.toList) (component type) scope tokens := by
  refine .bind (keeps_primary_solid htype hspelled) fun primary mid ↦
    .bind (.repeated fun _ _ ↦ keeps_suffix_prolongs htype hspelled) fun suffixes _ ↦ .pure ?_
  intro hsuffixes hprimary
  rw [Component.fullText, String.toList_append]
  exact prolongs_join (List.forall_mem_map.mpr hsuffixes) hprimary

end Rules

end SwiftType

end TestDouble
