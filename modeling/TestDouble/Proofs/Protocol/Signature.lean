import TestDouble.Proofs.Protocol.Seam
import TestDouble.Proofs.Protocol.Unnamed
import TestDouble.Proofs.Reader.Collect

/-!
# Signatures of methods

The signature of a method is what stands in front of its where clause. Behind it a member goes on
with the clause and nothing else, and it is read in the same way where a seam follows it. So where
two members begin with the same signature, the tokens behind it make all the difference.
-/

namespace TestDouble

open Reader Token
open SwiftType (Avoids continuations)

/-- The scope of a member. -/
def Scope.within (scope : Scope) (member : String) : Scope :=
  { scope with place.member? := some member }

/-! ## Signatures -/

namespace Method

/-- Reads a method up to its where clause. -/
def readSignature (name : String) (line : Nat) (isStatic : Bool) : Reader Draft := do
  let genericClause ← adjoinedGroup .angle
  unless ← sees "(" do fail .noParameterClause
  let parameters ← Parameter.readClause
  let effects ← repeated effect
  let result? ← readResult?
  return { name, parameters, result?, genericClause, effects, isStatic, line? := some line }

theorem readAfterName_eq_bind_readAfterResult (name : String) (line : Nat) (isStatic : Bool) :
    readAfterName name line isStatic = readSignature name line isStatic >>= readAfterResult := by
  simp only [readAfterName_eq, readAfterEffects, readSignature, readResult?, map_eq_pure_bind,
    bind_assoc, pure_bind, ite_bind]

theorem name_eq_of_reads_readSignature {name : String} {line : Nat} {isStatic : Bool}
    {scope : Scope} {tokens rest : List Token} {draft : Draft}
    (h : Reads (readSignature name line isStatic) scope tokens draft rest) : draft.name = name := by
  obtain ⟨genericClause, mid, -, h⟩ := reads_bind_iff.mp h
  rcases reads_ite_iff.mp (reads_sees_bind_iff.mp h) with ⟨-, h⟩ | ⟨-, hfail⟩
  · obtain ⟨parameters, mid, -, h⟩ := reads_bind_iff.mp h
    obtain ⟨effects, mid, -, h⟩ := reads_bind_iff.mp h
    obtain ⟨result?, mid, -, hpure⟩ := reads_bind_iff.mp h
    rw [← (reads_pure_iff.mp hpure).1]
  · exact absurd hfail not_reads_fail_bind

private theorem exists_name_of_reads {scope : Scope} {keyword : Token} {tokens rest : List Token}
    {isStatic : Bool} {method : Method} (his : keyword.is "func" = true)
    (h : Reads (read isStatic) scope (keyword :: tokens) method rest) :
    ∃ name back, tokens = name :: back ∧ name.isName = true ∧
      Reads (readAfterName name.text keyword.line isStatic) (scope.within name.text) back method
        rest := by
  have h := reads_ahead_bind_iff.mp ((reads_expect_bind_iff_of_is his).mp h)
  rcases tokens with _ | ⟨name, back⟩
  · exact absurd h not_reads_fail
  rw [List.head?_cons] at h
  rcases reads_ite_iff.mp h with ⟨hname, hread⟩ | ⟨-, hfail⟩
  · obtain ⟨hresult, hrest⟩ := reads_skip_bind_iff.mp hread
    exact ⟨name, back, rfl, hname, hresult, hrest⟩
  · exact absurd hfail not_reads_fail_bind

end Method

namespace Member

/-- Reads a method up to its where clause, from the words in front of it on. -/
def readSignature : Reader Method.Draft := do
  let leads ← Lead.read
  let isStatic := (leads.filterMap Lead.modifier?).any (· ∈ staticModifiers)
  let keyword ← expect "func" "to start method"
  let name ← expectName "for method"
  inMember name.text (Method.readSignature name.text keyword.line isStatic)

variable {protocol : String} {scope : Scope} {tokens mid rest back : List Token}
  {leads : List Lead} {keyword name : Token} {draft : Method.Draft} {method : Method}
  {fault : Fault}

/-- A member with the keyword of a method is the method behind the name. -/
theorem readAfterLeads_method (his : keyword.is "func" = true) (hname : name.isName = true) :
    readAfterLeads protocol leads scope (keyword :: name :: back) =
      (Member.method <$> Method.readAfterName name.text keyword.line
        ((leads.filterMap Lead.modifier?).any (· ∈ staticModifiers))) (scope.within name.text)
          back := by
  have hread (isStatic : Bool) : Method.read isStatic scope (keyword :: name :: back) =
      Method.readAfterName name.text keyword.line isStatic (scope.within name.text) back := by
    simp only [Method.read, bind, expect, his, hname, ahead, List.head?_cons, if_true]
    rfl
  have hahead (next : List Token → Reader Member) : (ahead >>= next) scope
      (keyword :: name :: back) = next (keyword :: name :: back) scope (keyword :: name :: back) :=
    rfl
  rw [map_apply, ← hread, ← map_apply, readAfterLeads, hahead, List.head?_cons]
  dsimp only
  rw [if_pos his]
  rfl

private theorem exists_keyword_of_reads_readSignature
    (h : Reads readSignature scope tokens draft mid) :
    ∃ leads keyword name back, Reads Lead.read scope tokens leads (keyword :: name :: back) ∧
      keyword.is "func" = true ∧ name.isName = true ∧ draft.name = name.text ∧
      Reads (Method.readSignature name.text keyword.line
        ((leads.filterMap Lead.modifier?).any (· ∈ staticModifiers))) (scope.within name.text) back
          draft mid := by
  obtain ⟨leads, afterLeads, hleads, hread⟩ := reads_bind_iff.mp h
  obtain ⟨keyword, afterKeyword, hkeyword, hread⟩ := reads_bind_iff.mp hread
  obtain ⟨name, back, hname, hresult, hrest⟩ := reads_bind_iff.mp hread
  obtain ⟨rfl, his⟩ := reads_expect_iff.mp hkeyword
  obtain ⟨rfl, hisName⟩ := reads_expectName_iff.mp hname
  exact ⟨leads, keyword, name, back, hleads, his, hisName,
    Method.name_eq_of_reads_readSignature ⟨hresult, hrest⟩, hresult, hrest⟩

/-- Behind its signature a method goes on with its where clause. -/
theorem read_of_readSignature (h : Reads readSignature scope tokens draft mid) :
    let others := (Member.method <$> Method.readAfterResult draft) (scope.within draft.name) mid
    (read protocol scope tokens).result = others.result ∧
      (read protocol scope tokens).rest = others.rest := by
  obtain ⟨leads, keyword, name, back, hleads, his, hname, htext, hdraft⟩ :=
    exists_keyword_of_reads_readSignature h
  rw [htext]
  obtain ⟨hresult, hrest⟩ :=
    @bind_of_ok _ _ Lead.read (readAfterLeads protocol) scope tokens leads hleads.result_eq
  rw [hleads.rest_eq, readAfterLeads_method his hname, Method.readAfterName_eq_bind_readAfterResult,
    map_bind] at hresult hrest
  obtain ⟨hresult', hrest'⟩ := @bind_of_ok _ _ _
    (fun draft ↦ Member.method <$> Method.readAfterResult draft) _ _ _ hdraft.result_eq
  rw [hdraft.rest_eq] at hresult' hrest'
  exact ⟨hresult.trans hresult', hrest.trans hrest'⟩

theorem reads_iff_of_readSignature {member : Member}
    (h : Reads readSignature scope tokens draft mid) :
    Reads (read protocol) scope tokens member rest ↔ ∃ method,
      Reads (Method.readAfterResult draft) (scope.within draft.name) mid method rest ∧
        Member.method method = member := by
  obtain ⟨hresult, hrest⟩ := @read_of_readSignature protocol _ _ _ _ h
  rw [← reads_map_iff]
  exact ⟨fun ⟨hok, hleft⟩ ↦ ⟨hresult.symm.trans hok, hrest.symm.trans hleft⟩,
    fun ⟨hok, hleft⟩ ↦ ⟨hresult.trans hok, hrest.trans hleft⟩⟩

theorem faults_of_readSignature (h : Reads readSignature scope tokens draft mid)
    (hfault : Faults (Method.readAfterResult draft) (scope.within draft.name) mid fault) :
    Faults (read protocol) scope tokens fault :=
  (read_of_readSignature h).1.trans hfault.map.result_eq

/-- A member that is a method has the signature of one. -/
theorem exists_reads_readSignature (h : Reads (read protocol) scope tokens (.method method) rest) :
    ∃ draft mid, Reads readSignature scope tokens draft mid := by
  obtain ⟨leads, afterLeads, hleads, hread⟩ := reads_bind_iff.mp h
  have hread' := reads_ahead_bind_iff.mp hread
  rcases afterLeads with _ | ⟨keyword, back⟩
  · exact absurd hread' not_reads_fail
  rw [List.head?_cons] at hread'
  rcases reads_ite_iff.mp hread' with ⟨his, hmethod⟩ | ⟨-, hread'⟩
  · obtain ⟨method', mid, hread, hpure⟩ := reads_bind_iff.mp hmethod
    obtain ⟨name, afterName, rfl, hname, hafter⟩ := Method.exists_name_of_reads his hread
    obtain ⟨draft, mid, hdraft, -⟩ := reads_bind_iff.mp
      ((Method.readAfterName_eq_bind_readAfterResult ..) ▸ hafter)
    refine ⟨draft, mid, hleads.bind_iff.mpr ?_⟩
    refine (reads_expect_bind_iff_of_is his).mpr ?_
    refine (reads_expectName_iff.mpr ⟨rfl, hname⟩ : Reads _ _ _ name _).bind_iff.mpr ?_
    exact ⟨hdraft.result_eq, hdraft.rest_eq⟩
  -- All other keywords give members of other kinds, or none.
  rcases reads_ite_iff.mp hread' with ⟨-, hproperty⟩ | ⟨-, hread'⟩
  · obtain ⟨property, mid, -, hpure⟩ := reads_bind_iff.mp hproperty
    cases (reads_pure_iff.mp hpure).1
  rcases reads_ite_iff.mp hread' with ⟨-, htype⟩ | ⟨-, hread'⟩
  · obtain ⟨type, mid, -, hpure⟩ := reads_bind_iff.mp htype
    cases (reads_pure_iff.mp hpure).1
  rcases reads_ite_iff.mp hread' with ⟨-, hskipped⟩ | ⟨-, hfail⟩
  · have hskipped := reads_skip_bind_iff.mp (reads_tell_bind_iff.mp hskipped)
    obtain ⟨taken, mid, -, hpure⟩ := reads_bind_iff.mp hskipped
    cases (reads_pure_iff.mp hpure).1
  · exact absurd hfail not_reads_fail

end Member

/-! ## Signatures across a seam -/

section Seam

variable {seam : Seam} {scope : Scope} {tokens : List Token} (htold : SwiftType.Guarded seam)

include htold in
theorem Method.holds_readResult? : seam.Holds (fun _ ↦ Avoids continuations) readResult? readResult?
    scope tokens := by
  refine .bind (.accept (by decide) (by decide)) fun seen mid ↦ .ite Iff.rfl (fun _ ↦ ?_)
    fun _ ↦ .pure
  exact .map (SwiftType.holds_read htold)

include htold in
theorem Method.holds_readSignature {name : String} {line : Nat} {isStatic : Bool} :
    seam.Holds (fun _ ↦ Avoids continuations) (readSignature name line isStatic)
      (readSignature name line isStatic) scope tokens := by
  refine .bind (holds_adjoinedGroup .angle (by decide)) fun genericClause mid ↦
    .sees_bind (by decide) (.ite Iff.rfl (fun _ ↦ ?_) fun _ ↦ .fail_bind)
  refine .bind (Parameter.holds_readClause htold) fun parameters mid ↦ .bind ?_ fun effects mid ↦
    .bind_pure (holds_readResult? htold)
  exact .repeated (fun _ ↦ holds_effect) (fun _ _ _ _ ↦ trivial) fun _ _ _ _ _ _ _ _ _ ↦ trivial

include htold in
/-- The signature of a method is read across any seam behind it. -/
theorem Member.holds_readSignature : seam.Holds (fun _ ↦ Avoids continuations) readSignature
    readSignature scope tokens := by
  refine .bind_of Lead.holds_read (fun leads mid ↦ .bind (.expect (by decide)) fun keyword mid ↦
    .bind .expectName fun name mid ↦ ?_) ?_
  · exact .inMember fun _ ↦ Method.holds_readSignature htold
  -- A modifier could be told from a name by the brace, but the keyword stands between them.
  · rintro leads mid signature rest - hread - - - rfl
    obtain ⟨keyword, back, hkeyword, -⟩ := reads_bind_iff.mp hread
    obtain ⟨heq, his⟩ := reads_expect_iff.mp hkeyword
    have hbrace := seam.brace_is
    rw [(List.cons.inj heq).1] at hbrace
    rw [is_eq_false_of_is hbrace (by decide)] at his
    cases his

end Seam

end TestDouble
