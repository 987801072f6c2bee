import Mathlib.Data.List.Pairwise
import TestDouble.Proofs.Protocol.Alike
import TestDouble.Proofs.Protocol.Cut
import TestDouble.Proofs.Reader.Finish

/-!
# The lines of faults

A fault of reading names a line, where a token of the declaration stands or where the text ends. The
latter can be far behind the declaration, since an excerpt has no end of its own: what comes behind
its last token is the end of the text.
-/

namespace TestDouble

open Reader

/-! ## Lines of tokens -/

/-- Lines ascend along a text, up to its end. -/
theorem Token.pairwise_line_of_scanFrom {line : Nat} {fresh : Bool} {cs : List Char}
    {tokens : Tokens} (h : scanFrom line fresh cs = .ok tokens) :
    (line :: (tokens.items.map (·.line) ++ [tokens.finish.line])).Pairwise (· ≤ ·) := by
  fun_induction scanFrom line fresh cs generalizing tokens with
  | case1 line fresh =>
    obtain rfl := Except.ok.inj h
    simp
  | case2 => simp at h
  | case3 line fresh c cs n text nextLine hpiece =>
    -- A piece that is no token moves on to the line on which it ends.
    rename_i ih
    have hlines := (ih h).cons_cons_of_trans (Nat.le_add_right line _)
    exact hlines.sublist (.cons_cons _ (List.sublist_cons_self ..))
  | case4 line fresh c cs n text nextLine kind hpiece =>
    rename_i ih
    obtain ⟨later, hlater, rfl⟩ := Except.map_eq_ok_iff.mp h
    have hlines := (ih hlater).cons_cons_of_trans (Nat.le_add_right line _)
    refine .cons_cons_of_trans (Nat.le_refl line) ?_
    exact hlines.sublist (.cons_cons _ (List.sublist_cons_self ..))

/-! ## Lines of a reading -/

/-- The same line, if it is one of the given lines. -/
def onLines (p : Nat → Prop) (line line' : Nat) : Prop :=
  line = line' ∧ p line

theorem LineAlike.exists_line {p : Nat → Prop} {line? line?' : Option Int} {line : Int}
    (h : LineAlike (onLines p) line? line?') (hline : line? = some line) :
    ∃ n : Nat, line = n ∧ p n := by
  cases h with
  | unknown => cases hline
  | known h => exact ⟨_, (Option.some.inj hline).symm, h.2⟩

/-- A fault lies on one of the lines that reading was given. -/
theorem Protocol.exists_line_of_readDeclaration {p : Nat → Prop} {line : Nat} {scope : Scope}
    {tokens : List Token} {fault : Fault} {found : Int} (hne : tokens ≠ []) (hline : p line)
    (hfinish : p scope.finish.line) (htokens : ∀ token ∈ tokens, p token.line)
    (h : (readDeclaration line scope tokens).result = .error fault)
    (hfound : fault.line? = some found) : ∃ n : Nat, found = n ∧ p n := by
  obtain ⟨first, tokens, rfl⟩ := List.exists_cons_of_ne_nil hne
  obtain ⟨hfirst, htokens⟩ := List.forall_mem_cons.mp htokens
  have hscope : scope.Alike (onLines p) scope := ⟨rfl, rfl, hfinish⟩
  have hself : List.Forall₂ (Token.Alike (onLines p)) tokens tokens :=
    List.forall₂_same.mpr fun token htoken ↦ .intro _ _ _ ⟨rfl, htokens token htoken⟩
  have hfront : first.AlikeFirst (onLines p) first := .intro _ _ _ _ ⟨rfl, hfirst⟩
  have halike := readDeclaration_alikeFirst hscope hfront ⟨rfl, hline⟩ hself
  rw [h] at halike
  generalize hresult : (Except.error fault : Except Fault Protocol) = result at halike
  cases halike with
  | ok => cases hresult
  | error hfault =>
    obtain rfl := Except.error.inj hresult
    cases hfault with
    | intro cause place hline => exact hline.exists_line hfound

namespace Excerpt

/-! ## Lines of a declaration -/

/-- The line lies between those of the first and the last token. -/
def Covers (excerpt : Excerpt) (line : Nat) : Prop :=
  (∃ first ∈ excerpt.items.head?, first.line ≤ line) ∧
    ∃ last ∈ excerpt.items.getLast?, line ≤ last.line

instance (excerpt : Excerpt) (line : Nat) : Decidable (excerpt.Covers line) := by
  unfold Covers
  infer_instance

variable {text : String} {excerpts : List Excerpt} {excerpt : Excerpt} {fault : Fault}

/-- The lines of an excerpt ascend, up to the end of the text. -/
theorem pairwise_line (h : ofText text = .ok excerpts) (hmem : excerpt ∈ excerpts) :
    (excerpt.items.map (·.line) ++ [excerpt.finish.line]).Pairwise (· ≤ ·) := by
  obtain ⟨tokens, earlier, keyword, later, hscan, hsplit, hcut⟩ := exists_cutFrom_of_ofText h hmem
  have hsublist : excerpt.items.Sublist tokens.items := by
    rw [hcut.items_eq, hsplit]
    exact (List.take_sublist ..).reverse.append (.cons_cons _ (List.take_sublist ..))
  have hlines := (Token.pairwise_line_of_scanFrom hscan).of_cons
  rw [hcut.finish_eq]
  exact hlines.sublist ((hsublist.map _).append (.refl _))

private theorem covers_of_mem (hlines : (excerpt.items.map (·.line)).Pairwise (· ≤ ·))
    {token : Token} (htoken : token ∈ excerpt.items) : excerpt.Covers token.line := by
  rw [List.pairwise_map] at hlines
  rw [Covers]
  generalize excerpt.items = items at hlines htoken ⊢
  constructor
  · obtain ⟨first, items, rfl⟩ := List.exists_cons_of_ne_nil (List.ne_nil_of_mem htoken)
    refine ⟨first, rfl, ?_⟩
    rcases List.mem_cons.mp htoken with rfl | htoken
    · exact Nat.le_refl _
    · exact List.rel_of_pairwise_cons hlines htoken
  · obtain ⟨items, last, rfl⟩ :=
      (List.eq_nil_or_concat' items).resolve_left (List.ne_nil_of_mem htoken)
    refine ⟨last, List.getLast?_concat, ?_⟩
    rcases List.mem_append.mp htoken with htoken | htoken
    · exact (List.pairwise_append.mp hlines).2.2 token htoken last List.mem_cons_self
    · exact (List.mem_singleton.mp htoken) ▸ Nat.le_refl _

/-- A fault of the tokens lies in the declaration, unless reading has come to its end. Then it can
lie where the text ends. -/
theorem line_of_read (h : ofText text = .ok excerpts) (hmem : excerpt ∈ excerpts)
    (hread : excerpt.read.result = .error fault) (hkind : fault.kind = .parsing) :
    ∃ line : Nat, fault.line? = some (line : Int) ∧ (excerpt.Covers line ∨
      excerpt.read.rest = [] ∧ line = excerpt.finish.line ∧
        ∀ token ∈ excerpt.items, token.line ≤ line) := by
  obtain ⟨hlines, -, hfinish⟩ := List.pairwise_append.mp (pairwise_line h hmem)
  obtain ⟨keyword, hkeyword, hline⟩ : ∃ token ∈ excerpt.items, token.line = excerpt.line := by
    obtain ⟨_, earlier, keyword, later, -, -, hcut⟩ := exists_cutFrom_of_ofText h hmem
    exact ⟨keyword, by simp [hcut.items_eq], hcut.line_eq.symm⟩
  have hne : excerpt.items ≠ [] := List.ne_nil_of_mem hkeyword
  obtain ⟨found, hfound⟩ : ∃ found, fault.line? = some found := by
    cases fault_of_read hread with
    | parsing => exact ⟨_, rfl⟩
    | signature hsignature => cases hsignature.symm.trans hkind
  by_cases hrest : excerpt.read.rest = []
  -- At its end, reading knows the lines of the tokens and that of the end of the text.
  · obtain ⟨line, rfl, hline⟩ := Protocol.exists_line_of_readDeclaration
      (p := fun line ↦ (∃ token ∈ excerpt.items, token.line = line) ∨ line = excerpt.finish.line)
      hne (.inl ⟨keyword, hkeyword, hline⟩) (.inr rfl)
      (fun token htoken ↦ .inl ⟨token, htoken, rfl⟩) hread hfound
    refine ⟨line, hfound, ?_⟩
    rcases hline with ⟨token, htoken, rfl⟩ | rfl
    · exact .inl (covers_of_mem hlines htoken)
    · exact .inr ⟨hrest, rfl, fun token htoken ↦
        hfinish token.line (List.mem_map_of_mem htoken) _ List.mem_cons_self⟩
  · -- The fault is the same for a text that ends on the line of the keyword.
    have hsame := (ignoresFinish_compositional.declaration excerpt.line _ _ (.inr hrest)
      { line := excerpt.line }).1.trans hread
    obtain ⟨line, rfl, token, htoken, rfl⟩ := Protocol.exists_line_of_readDeclaration
      (p := fun line ↦ ∃ token ∈ excerpt.items, token.line = line) hne ⟨keyword, hkeyword, hline⟩
      ⟨keyword, hkeyword, hline⟩ (fun token htoken ↦ ⟨token, htoken, rfl⟩) hsame hfound
    exact ⟨_, hfound, .inl (covers_of_mem hlines htoken)⟩

/-- Behind a declaration without a body there is nothing left to read, and the fault lies at the end
of the text. A fault inside a body lies on the line of a token. -/
theorem line_of_read_bodiless :
    let text := "protocol P;\n\nprotocol Q \x7b\nfunc run(\n\x7d\n"
    ∃ excerpts, ofText text = .ok excerpts ∧ excerpts.map (·.name) = ["P", "Q"] ∧
      ∀ excerpt ∈ excerpts, ∃ (fault : Fault) (line : Nat), excerpt.read.result = .error fault ∧
        fault.kind = .parsing ∧ fault.line? = some (line : Int) ∧
        (excerpt.Covers line ∨ excerpt.read.rest = [] ∧ line = excerpt.finish.line ∧
          ∀ token ∈ excerpt.items, token.line ≤ line) ∧
        (excerpt.Covers line ↔ excerpt.name = "Q") := by
  intro text
  have hfound : (ofText text).toOption.any (fun excerpts ↦
      excerpts.map (·.name) = ["P", "Q"] && excerpts.all fun excerpt ↦
        excerpt.read.result.toError?.any fun fault ↦ fault.kind = .parsing &&
          fault.line?.all fun line ↦ decide (excerpt.Covers line.toNat ↔ excerpt.name = "Q")) =
            true := by
    decide +kernel
  obtain ⟨excerpts, hexcerpts, hall⟩ := (Option.any_eq_true _ _).mp hfound
  rw [Bool.and_eq_true, decide_eq_true_eq, List.all_eq_true] at hall
  rw [Except.toOption_eq_some_iff] at hexcerpts
  refine ⟨excerpts, hexcerpts, hall.1, fun excerpt hmem ↦ ?_⟩
  obtain ⟨fault, hread, hfault⟩ := (Option.any_eq_true _ _).mp (hall.2 excerpt hmem)
  rw [Except.toError?_eq_some_iff] at hread
  rw [Bool.and_eq_true, decide_eq_true_eq] at hfault
  obtain ⟨hkind, hcovers⟩ := hfault
  obtain ⟨line, hline, hwhere⟩ := line_of_read hexcerpts hmem hread hkind
  rw [hline] at hcovers
  exact ⟨fault, line, hread, hkind, hline, hwhere, of_decide_eq_true hcovers⟩

/-- The text can end on a later line than the declaration. -/
theorem not_forall_covers : ¬ ∀ (text : String) (excerpts : List Excerpt),
    ofText text = .ok excerpts → ∀ excerpt ∈ excerpts, ∀ fault,
      excerpt.read.result = .error fault → fault.kind = .parsing →
      ∃ line : Nat, fault.line? = some (line : Int) ∧ excerpt.Covers line := by
  intro h
  have hfound : (ofText "protocol P;\n\nstruct S \x7b \x7d\n").toOption.any (fun excerpts ↦
      excerpts.any fun excerpt ↦ excerpt.read.result.toError?.any fun fault ↦
        fault.kind = .parsing && fault.line?.all fun line ↦ decide (¬ excerpt.Covers line.toNat)) =
          true := by
    decide +kernel
  obtain ⟨excerpts, hexcerpts, hany⟩ := (Option.any_eq_true _ _).mp hfound
  obtain ⟨excerpt, hmem, hexcerpt⟩ := List.any_eq_true.mp hany
  obtain ⟨fault, hread, hfault⟩ := (Option.any_eq_true _ _).mp hexcerpt
  rw [Except.toOption_eq_some_iff] at hexcerpts
  rw [Except.toError?_eq_some_iff] at hread
  rw [Bool.and_eq_true, decide_eq_true_eq] at hfault
  obtain ⟨hkind, hnot⟩ := hfault
  obtain ⟨line, hline, hcovers⟩ := h _ excerpts hexcerpts excerpt hmem fault hread hkind
  rw [hline] at hnot
  exact of_decide_eq_true hnot hcovers

end Excerpt

end TestDouble
