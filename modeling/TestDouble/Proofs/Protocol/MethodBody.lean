import TestDouble.Proofs.Protocol.Body
import TestDouble.Proofs.Protocol.Enclosed
import TestDouble.Proofs.Protocol.Signature

/-!
# Methods with a body

A requirement has no body, and a method that has one is refused where its signature ends. A where
clause is an exception. It is collected up to the next member, groups in one piece, and so it takes
the body with it: behind a where clause a body is accepted if it is a group, and refused for its
brackets only if it is none.
-/

namespace TestDouble

open Reader Token
open SwiftType (Avoids continuations)

/-! ## What follows a signature -/

namespace Method

variable {scope : Scope} {tokens rest back : List Token} {draft : Draft} {method : Method}
  {opener : Token}

/-- A body is refused where the where clause could begin. -/
theorem faults_readAfterResult (hopener : opener.is "\x7b" = true) :
    Faults (readAfterResult draft) scope (opener :: back)
      { cause := .methodBody, place := scope.place, line? := some opener.line } := by
  have hwhere : stands ["where"] (opener :: back) = false := by
    rw [stands_singleton_cons]
    exact is_eq_false_of_is hopener (by decide)
  have haccept : Reads (accept "where") scope (opener :: back) false (opener :: back) :=
    reads_accept_iff.mpr (.inr ⟨rfl, hwhere, rfl⟩)
  refine haccept.faults_bind ?_
  have hpure : Reads (pure "") scope (opener :: back) "" (opener :: back) := .pure
  refine hpure.faults_bind (.sees_bind ?_)
  rw [stands_singleton_cons, hopener]
  exact Faults.bind rfl

theorem check_of_reads_close (h : Reads (close draft) scope tokens method rest) :
    draft.check = .ok method := by
  rcases reads_ite_iff.mp (reads_sees_bind_iff.mp h) with ⟨-, hread⟩ | ⟨-, hread⟩
  · exact absurd hread not_reads_fail_bind
  rcases reads_ite_iff.mp (reads_ahead_bind_iff.mp hread) with ⟨-, hread⟩ | ⟨-, hread⟩
  · split at hread
    · exact absurd hread not_reads_refuse
    · next hcheck =>
      have hpure := reads_tell_bind_iff.mp hread
      rw [hcheck, (reads_pure_iff.mp hpure).1]
  · exact absurd hread not_reads_fail_bind

private theorem name_eq_of_check (h : draft.check = .ok method) : method.name = draft.name :=
  congrArg (·.name) (Draft.toDraft_eq_of_check h)

/-- A where clause is collected if there is one, and then the method has to end. -/
theorem reads_readAfterResult_cases (h : Reads (readAfterResult draft) scope tokens method rest) :
    (stands ["where"] tokens = false ∧ tokens = rest ∧
      Reads (close { draft with whereClause := "" }) scope rest method rest) ∨
    ∃ word back clause, tokens = word :: back ∧ word.is "where" = true ∧
      Reads (collectUntil endsMember) scope back clause rest ∧
      Reads (close { draft with whereClause := Token.join clause }) scope rest method rest := by
  obtain ⟨accepted, mid, haccept, hread⟩ := reads_bind_iff.mp h
  rcases reads_accept_iff.mp haccept with ⟨rfl, word, rfl, his⟩ | ⟨rfl, hnot, rfl⟩
  · obtain ⟨text, mid, hclause, hclose⟩ := reads_bind_iff.mp hread
    obtain rfl := reads_close hclose
    obtain ⟨clause, hcollect, rfl⟩ := reads_map_iff.mp hclause
    exact .inr ⟨word, _, clause, rfl, his, hcollect, hclose⟩
  · have hclose := reads_pure_bind_iff.mp hread
    obtain rfl := reads_close hclose
    exact .inl ⟨hnot, rfl, hclose⟩

private theorem name_eq_of_reads_readAfterResult
    (h : Reads (readAfterResult draft) scope tokens method rest) : method.name = draft.name := by
  rcases reads_readAfterResult_cases h with ⟨-, -, hclose⟩ | ⟨_, _, _, -, -, -, hclose⟩
  all_goals
    have hname := name_eq_of_check (check_of_reads_close hclose)
    exact hname

/-- Whether a method is accepted where it ends is a matter of its parameters. -/
theorem exists_reads_close (draft' : Draft) (hcheck : draft.check = .ok method)
    (hparameters : draft'.parameters = draft.parameters) (hends : endsMember tokens = true)
    (hopener : stands ["\x7b"] tokens = false) :
    ∃ method', Reads (close draft') scope tokens method' tokens := by
  have hclash : Parameter.clash? draft.parameters = none := by
    rcases hclash : Parameter.clash? draft.parameters with _ | cause
    · rfl
    · cases hcheck.symm.trans (Draft.check_of_clash draft hclash)
  obtain ⟨method', hread⟩ := reads_conclude scope tokens (hparameters ▸ hclash)
  refine ⟨method', reads_sees_bind_iff.mpr ?_⟩
  rw [hopener]
  refine reads_ahead_bind_iff.mpr ?_
  rw [hends]
  exact hread

/-- The tokens are the front of a where clause: the method goes on as what follows is collected. -/
structure OpensClause (draft : Draft) (front : List Token) : Prop where
  reads : ∀ scope others parts rest,
    Reads (repeated (collectTurn endsMember)) scope others parts rest → endsMember rest = true →
      stands ["\x7b"] rest = false →
        ∃ method, Reads (readAfterResult draft) scope (front ++ others) method rest
  faults : ∀ scope others fault, Faults (repeated (collectTurn endsMember)) scope others fault →
    Faults (readAfterResult draft) scope (front ++ others) fault

/-- All that is read of a where clause is the front of a longer one. -/
theorem exists_opensClause (h : Reads (readAfterResult draft) scope tokens method rest)
    (hwhere : stands ["where"] tokens = true) :
    ∃ front, tokens = front ++ rest ∧ OpensClause draft front := by
  rcases reads_readAfterResult_cases h with
    ⟨hnot, -⟩ | ⟨word, back, clause, rfl, his, hcollect, hclose⟩
  · cases hwhere.symm.trans hnot
  obtain ⟨parts, hparts, rfl⟩ := reads_map_iff.mp (collectUntil_eq endsMember ▸ hcollect)
  -- Where to stop is seen from the next token, so the parts are the same in front of other tokens.
  obtain ⟨front, rfl, hothers⟩ := collects_append (fun _ _ _ ↦ rfl) hparts
  refine ⟨word :: front, rfl, fun scope' others parts' rest' hread hends hopener ↦ ?_,
    fun scope' others fault hfault ↦ ?_⟩
  · have hread := (hothers scope' others).1 parts' rest' hread
    have hclause : Reads (Token.join <$> collectUntil endsMember) scope' (front ++ others)
        (Token.join (parts ++ parts').flatten) rest' :=
      reads_map_iff.mpr ⟨_, reads_map_iff.mpr ⟨_, hread, rfl⟩, rfl⟩
    obtain ⟨method', hmethod'⟩ := exists_reads_close
      { draft with whereClause := Token.join (parts ++ parts').flatten }
      (check_of_reads_close hclose) rfl hends hopener
    exact ⟨method', (reads_accept_bind_iff_of_is his).mpr (hclause.bind_iff.mpr hmethod')⟩
  · have haccept : Reads (accept "where") scope' (word :: (front ++ others)) true
        (front ++ others) := reads_accept_iff.mpr (.inl ⟨rfl, word, rfl, his⟩)
    exact haccept.faults_bind (((hothers scope' others).2 fault hfault).map.map.bind)

end Method

/-! ## A body behind a method -/

section Body

variable {scope : Scope} {opener closer brace : Token} {inner back : List Token}

private theorem endsMember_opener (hspelled : Spelled opener.kind opener.text.toList)
    (hopener : opener.is "\x7b" = true) : endsMember (opener :: back) = false := by
  have hkind := kind_of_is hspelled hopener Bracket.spelled_openBrace
  have hwords : "\x7b" ∉ memberWords ∧ "\x7b" ∉ accessLevels ∧ "\x7b" ∉ idleModifiers ∧
      "\x7b" ∉ staticModifiers := by decide
  simp [endsMember, is_eq_false_of_is hopener, hkind, text_eq_of_is hopener, hwords]

private theorem endsMember_closer (hbrace : brace.is "\x7d" = true) :
    endsMember (brace :: back) = true := by
  simp [endsMember, hbrace]

variable (hspelled : ∀ token ∈ opener :: (inner ++ closer :: brace :: back),
    Spelled token.kind token.text.toList)
  (hopener : opener.is "\x7b" = true) (hbody : Closes 0 inner closer)

variable (scope) in
include hspelled hopener hbody in
/-- A body does not end a where clause. It is taken whole if it is a group. -/
theorem exists_reads_collect_body (hbrace : brace.is "\x7d" = true)
    (hgroup : Bracket.IsGroup .curly (opener :: (inner ++ [closer]))) :
    ∃ parts, Reads (repeated (collectTurn endsMember)) scope
      (opener :: (inner ++ closer :: brace :: back)) parts (brace :: back) := by
  obtain ⟨hfirst, hothers⟩ := List.forall_mem_cons.mp hspelled
  have hopens : Bracket.Opens .curly .curly opener :=
    Bracket.marks_of_is hfirst hopener Bracket.spelled_openBrace
  have hread : Reads (group .curly) scope (opener :: (inner ++ closer :: brace :: back)) inner
      (brace :: back) :=
    reads_group_iff.mpr ((Bracket.close_eq_closed_iff hopens hbody hothers).mpr ⟨hgroup, rfl, rfl⟩)
  obtain ⟨part, hpart⟩ := hread.exists_collectPart hopener (by decide)
  refine ⟨_, (hpart.collectTurn (endsMember_opener hfirst hopener)).repeatFrom_more ?_
    (reads_collectTurn_stop (endsMember_closer hbrace)).repeatFrom_stop⟩
  simp only [List.length_cons, List.length_append]
  omega

variable (scope) in
include hspelled hopener hbody in
private theorem exists_faults_collect_body
    (hgroup : ¬ Bracket.IsGroup .curly (opener :: (inner ++ [closer]))) :
    ∃ fault, fault.kind = .parsing ∧ Faults (repeated (collectTurn endsMember)) scope
      (opener :: (inner ++ closer :: brace :: back)) fault := by
  obtain ⟨hfirst, hothers⟩ := List.forall_mem_cons.mp hspelled
  have hopens : Bracket.Opens .curly .curly opener :=
    Bracket.marks_of_is hfirst hopener Bracket.spelled_openBrace
  rcases hresult : (group .curly scope (opener :: (inner ++ closer :: brace :: back))).result with
    fault | inner'
  · have hpart := Faults.collectPart hresult hopener (by decide)
    refine ⟨fault, ?_, (hpart.collectTurn (endsMember_opener hfirst hopener)).repeatFrom⟩
    rcases result_group_eq_error_iff.mp hresult with ⟨_, _, _, -, rfl⟩ | ⟨-, rfl⟩ <;> rfl
  · have hclose := reads_group_iff.mp ⟨hresult, rfl⟩
    exact absurd ((Bracket.close_eq_closed_iff hopens hbody hothers).mp hclose).1 hgroup

end Body

namespace Member

open Protocol (braceAt)

variable {scope scope' : Scope} {line : Nat} {opener : Token} {tokens front more : List Token}

/-- A signature is read as well where a body stands in place of the brace. -/
theorem reads_readSignature_append {draft : Method.Draft}
    (hspelled : ∀ token ∈ tokens, Spelled token.kind token.text.toList)
    (hopener : opener.is "\x7b" = true) (hfirst : Spelled opener.kind opener.text.toList)
    (h : Reads readSignature scope (tokens ++ [braceAt line]) draft (front ++ [braceAt line]))
    (havoids : Avoids continuations (front ++ [braceAt line])) :
    Reads readSignature scope' (tokens ++ opener :: more) draft (front ++ opener :: more) := by
  have hsought : opener.text ∉ sought := by
    rw [text_eq_of_is hopener]
    decide
  let seam : Seam := ⟨braceAt line, opener, more, fun _ ↦ True, rfl, rfl, rfl, hsought⟩
  -- A body is no type, so a type in front of it ends where it did.
  have htold : SwiftType.Guarded seam := by
    intro hstarts
    have hkind := kind_of_is hfirst hopener Bracket.spelled_openBrace
    rw [SwiftType.startsType, hkind, is_eq_false_of_is hopener (by decide),
      is_eq_false_of_is hopener (by decide)] at hstarts
    cases hstarts
  have hspelled' : ∀ token ∈ tokens ++ [braceAt line], Spelled token.kind token.text.toList :=
    List.forall_mem_append.mpr
      ⟨hspelled, List.forall_mem_singleton.mpr Excerpt.spelled_closeBrace⟩
  obtain ⟨taken, -, -, hextend⟩ := holds_readSignature htold hspelled' h
  have hextended (tokens : List Token) :
      seam.extend (tokens ++ [braceAt line]) = tokens ++ opener :: more := by
    rw [Seam.extend_append tokens (List.suffix_refl _), Seam.extend_brace]
  have hread := hextend (List.suffix_append front _) havoids (fun _ _ ↦ trivial) scope'
  rwa [hextended, hextended] at hread

/-- The tokens are a method with a where clause, if they are a method. -/
def HasClause (scope : Scope) (tokens : List Token) : Prop :=
  ∃ draft rest, Reads readSignature scope tokens draft rest ∧ stands ["where"] rest = true

variable {protocol : String} {line' : Nat} {closer : Token} {inner : List Token} {method : Method}
  (hspelled : ∀ token ∈ tokens ++ opener :: (inner ++ closer :: [braceAt line']),
    Spelled token.kind token.text.toList)
  (hopener : opener.is "\x7b" = true) (hbody : Closes 0 inner closer)
  (h : Reads (read protocol) scope (tokens ++ [braceAt line]) (.method method) [braceAt line])

include hspelled hopener h in
/-- Behind a method without a where clause a body is refused. -/
theorem faults_body (hclause : ¬ HasClause scope (tokens ++ [braceAt line])) :
    Faults (read protocol) scope' (tokens ++ opener :: (inner ++ closer :: [braceAt line'])) {
      cause := .methodBody
      place := (scope'.within method.name).place
      line? := some opener.line } := by
  obtain ⟨hfront, hback⟩ := List.forall_mem_append.mp hspelled
  obtain ⟨draft, mid, hsignature⟩ := exists_reads_readSignature h
  obtain ⟨method, hread, ⟨⟩⟩ := (reads_iff_of_readSignature hsignature).mp h
  rcases Method.reads_readAfterResult_cases hread with ⟨-, rfl, -⟩ | ⟨word, back, _, rfl, his, -⟩
  · have hsignature' := @reads_readSignature_append _ scope' line opener tokens []
      (inner ++ closer :: [braceAt line']) draft hfront hopener (hback opener List.mem_cons_self)
      hsignature (@SwiftType.avoids_of_is _ (braceAt line) "\x7d" rfl (by decide))
    rw [Method.name_eq_of_reads_readAfterResult hread]
    exact faults_of_readSignature hsignature' (Method.faults_readAfterResult hopener)
  · exact absurd ⟨draft, _, hsignature, by simpa using his⟩ hclause

variable (scope') in
include hspelled hopener h in
/-- Behind a where clause a body is where the clause goes on. -/
theorem exists_readSignature_clause (hclause : HasClause scope (tokens ++ [braceAt line])) :
    ∃ draft front, Reads readSignature scope'
        (tokens ++ opener :: (inner ++ closer :: [braceAt line'])) draft
        (front ++ opener :: (inner ++ closer :: [braceAt line'])) ∧
      Method.OpensClause draft front := by
  obtain ⟨hfront, hback⟩ := List.forall_mem_append.mp hspelled
  obtain ⟨draft, mid, hsignature, hwhere⟩ := hclause
  obtain ⟨method, hread, ⟨⟩⟩ := (reads_iff_of_readSignature hsignature).mp h
  obtain ⟨front, rfl, hopens⟩ := Method.exists_opensClause hread hwhere
  have havoids : Avoids continuations (front ++ [braceAt line]) := by
    obtain ⟨word, back, hmid, his⟩ := stands_singleton_eq_true_iff.mp hwhere
    rw [hmid]
    exact SwiftType.avoids_of_is his (by decide)
  exact ⟨draft, front, reads_readSignature_append hfront hopener (hback opener List.mem_cons_self)
    hsignature havoids, hopens⟩

include hspelled hopener hbody h in
/-- Behind a where clause a body is accepted if it is a group. -/
theorem exists_reads_body (hclause : HasClause scope (tokens ++ [braceAt line]))
    (hgroup : Bracket.IsGroup .curly (opener :: (inner ++ [closer]))) :
    ∃ method', Reads (read protocol) scope'
      (tokens ++ opener :: (inner ++ closer :: [braceAt line'])) (.method method')
        [braceAt line'] := by
  have hback := (List.forall_mem_append.mp hspelled).2
  obtain ⟨draft, front, hsignature, hclause⟩ :=
    exists_readSignature_clause scope' hspelled hopener h hclause
  obtain ⟨parts, hparts⟩ :=
    exists_reads_collect_body (scope'.within draft.name) hback hopener hbody rfl hgroup
  obtain ⟨method', hmethod'⟩ := hclause.reads _ _ _ _ hparts rfl rfl
  exact ⟨method', (reads_iff_of_readSignature hsignature).mpr ⟨method', hmethod', rfl⟩⟩

include hspelled hopener hbody h in
/-- Behind a where clause a body is refused if it is no group. -/
theorem exists_faults_body (hclause : HasClause scope (tokens ++ [braceAt line]))
    (hgroup : ¬ Bracket.IsGroup .curly (opener :: (inner ++ [closer]))) :
    ∃ fault, fault.kind = .parsing ∧ Faults (read protocol) scope'
      (tokens ++ opener :: (inner ++ closer :: [braceAt line'])) fault := by
  have hback := (List.forall_mem_append.mp hspelled).2
  obtain ⟨draft, front, hsignature, hclause⟩ :=
    exists_readSignature_clause scope' hspelled hopener h hclause
  obtain ⟨fault, hkind, hfault⟩ :=
    exists_faults_collect_body (scope'.within draft.name) hback hopener hbody hgroup
  exact ⟨fault, hkind, faults_of_readSignature hsignature (hclause.faults _ _ _ hfault)⟩

end Member

namespace Protocol

variable {name : String} {line line' : Nat} {scope : Scope} {token : Token}
  {tokens back rest : List Token} {member : Member} {method : Method} {fault : Fault}

/-! ## A single member in a body -/

private theorem faults_bodyTurn (hcloser : token.is "\x7d" = false)
    (hsemicolon : token.is ";" = false)
    (h : Faults (Member.read name) scope (token :: back) fault) :
    Faults (bodyTurn name line) scope (token :: back) fault := by
  refine faults_ahead_bind_iff.mpr ?_
  rw [stands_singleton_cons, hcloser]
  have haccept : Reads (accept ";") scope (token :: back) false (token :: back) :=
    reads_accept_iff.mpr (.inr ⟨rfl, by simpa using hsemicolon, rfl⟩)
  exact haccept.faults_bind h.bind

private theorem faults_readMembers (hcloser : token.is "\x7d" = false)
    (hsemicolon : token.is ";" = false) (h : Faults (Member.read "P") scope (token :: back) fault) :
    Faults readMembers scope (token :: back) fault := by
  have hbody : Faults (readBody "P" 1) scope (token :: back) fault :=
    Faults.repeatFrom (faults_bodyTurn hcloser hsemicolon h)
  exact hbody.bind

private theorem reads_bodyTurn (hcloser : token.is "\x7d" = false)
    (hsemicolon : token.is ";" = false)
    (h : Reads (Member.read name) scope (token :: back) member rest) :
    Reads (bodyTurn name line) scope (token :: back) (.more member) rest := by
  refine reads_bodyTurn_iff.mpr (.inr ⟨by simpa using hcloser, by simp, ?_⟩)
  have hnot : stands [";"] (token :: back) = false := by simpa using hsemicolon
  refine (reads_accept_bind_iff_of_not_stands hnot).mpr ?_
  exact h.bind_iff.mpr .pure

/-- A member up to the brace at the end of a body is its only one. -/
theorem reads_readMembers_singleton (hcloser : token.is "\x7d" = false)
    (hsemicolon : token.is ";" = false)
    (h : Reads (Member.read "P") scope (token :: back) member [braceAt line]) (hne : back ≠ []) :
    Reads readMembers scope (token :: back) (ofMembers [member]) [] := by
  refine reads_readMembers_iff.mpr ⟨[member], braceAt line, ?_, rfl, rfl⟩
  have hstop : Reads (bodyTurn "P" 1) scope [braceAt line] .stop [braceAt line] :=
    reads_bodyTurn_iff.mpr (.inl ⟨rfl, rfl, rfl⟩)
  refine Reads.repeatFrom_more (reads_bodyTurn hcloser hsemicolon h) ?_
    (Reads.repeatFrom_stop hstop)
  simpa using List.length_pos_of_ne_nil hne

/-- A body of a single method begins with the method. -/
theorem exists_member_of_reads_body
    (h : Reads (readBody name line) scope (tokens ++ [braceAt line']) [.method method]
      [braceAt line']) :
    ∃ token back, tokens = token :: back ∧ token.is "\x7d" = false ∧ token.is ";" = false ∧
      Reads (Member.read name) scope (tokens ++ [braceAt line']) (.method method)
        [braceAt line'] := by
  -- One turn gives the method, and the next one stops at the brace without taking it.
  have hturn : Reads (bodyTurn name line) scope (tokens ++ [braceAt line']) (.more (.method method))
      [braceAt line'] := by
    rcases reads_repeatFrom_iff.mp h with ⟨-, ⟨⟩⟩ | ⟨member, hturn, hitems⟩ |
      ⟨member, mid, items, hturn, -, hitems, heq⟩ | ⟨member, hturn, -, hitems⟩
    · rcases reads_bodyTurn_iff.mp hturn with ⟨-, ⟨⟩, -⟩ | ⟨-, -, hmember⟩
      obtain ⟨_, ⟨⟩, -⟩ := reads_memberTurn_cases hmember
    · obtain ⟨rfl, rfl⟩ := List.cons.inj heq
      rcases reads_repeatFrom_iff.mp hitems with ⟨hstop, -⟩ | ⟨_, -, ⟨⟩⟩ | ⟨_, _, _, -, -, -, ⟨⟩⟩ |
        ⟨_, -, -, ⟨⟩⟩
      rcases reads_bodyTurn_iff.mp hstop with ⟨-, -, rfl⟩ | ⟨-, -, hmember⟩
      · exact hturn
      · obtain ⟨_, ⟨⟩, -⟩ := reads_memberTurn_cases hmember
    · obtain ⟨rfl, -⟩ := List.cons.inj hitems
      exact hturn
  rcases reads_bodyTurn_iff.mp hturn with ⟨-, ⟨⟩, -⟩ | ⟨hcloser, -, hmember⟩
  obtain ⟨accepted, mid, haccept, hread⟩ := reads_bind_iff.mp hmember
  rcases reads_accept_iff.mp haccept with ⟨rfl, -⟩ | ⟨rfl, hsemicolon, rfl⟩
  · cases (reads_pure_iff.mp hread).1
  obtain ⟨member, mid, hread, hpure⟩ := reads_bind_iff.mp hread
  obtain ⟨⟨⟩, rfl⟩ := reads_pure_iff.mp hpure
  rcases tokens with _ | ⟨token, back⟩
  · rw [List.nil_append, stands_singleton_cons] at hcloser
    cases hcloser
  · rw [List.cons_append, stands_singleton_cons] at hcloser hsemicolon
    exact ⟨token, back, rfl, hcloser, hsemicolon, hread⟩

/-! ## Requirements -/

/-- The text is a method requirement: by itself, in the body of a protocol, it is read as a method
and nothing else. -/
structure Requirement (text : String) (method : Method) (tokens : List Token) : Prop where
  scan : ∃ finish, scanFrom 2 true text.toList = .ok ⟨tokens, finish⟩
  balanced : Balanced tokens
  reads : Reads (readBody "P" 1) (scopeAt (lineCount text + 2))
    (tokens ++ [braceAt (lineCount text + 2)]) [.method method] [braceAt (lineCount text + 2)]

namespace Requirement

variable {text whole : String} {opener closer : Token} {inner : List Token} {finish : Finish}

/-- The requirement has a where clause. -/
def HasClause (text : String) (tokens : List Token) : Prop :=
  Member.HasClause (scopeAt (lineCount text + 2)) (tokens ++ [braceAt (lineCount text + 2)])

theorem spelled (h : Requirement text method tokens) : ∀ token ∈
    tokens ++ [braceAt (lineCount text + 2)], Spelled token.kind token.text.toList := by
  obtain ⟨finish, hscan⟩ := h.scan
  exact spelled_of_mem (scan_bodyText_singleton hscan)

/-- A requirement closes the braces that it opens. -/
theorem level (h : Requirement text method tokens) :
    tokens.countP (·.is "\x7b") = tokens.countP (·.is "\x7d") := by
  obtain ⟨taken, htaken, hlevels⟩ := levels_of_reads_body h.spelled h.reads
  obtain rfl := List.append_cancel_right htaken
  have hcount := h.balanced tokens (List.prefix_refl tokens)
  rw [Levels] at hlevels
  omega

/-- The protocol with a requirement in its body has the method and no other member. -/
theorem ofText_eq (h : Requirement text method tokens) :
    ofText (withBody [text]) = .ok (ofMembers [.method method]) := by
  obtain ⟨finish, hscan⟩ := h.scan
  rw [ofText_eq_result_readMembers hscan h.balanced]
  exact (reads_readMembers_iff.mpr ⟨_, _, h.reads, rfl, rfl⟩).result_eq

/-- A requirement with a body is a balanced text. -/
theorem balanced_append (h : Requirement text method tokens) (hopener : opener.is "\x7b" = true)
    (hbody : Closes 0 inner closer) : Balanced (tokens ++ opener :: (inner ++ [closer])) := by
  have hlevel := hbody.level
  rw [Nat.zero_add] at hlevel
  have henclosed := hbody.within.enclose hlevel (is_eq_false_of_is hopener (by decide))
    (is_eq_false_of_is hbody.is_closer (by decide)) (hopener.trans hbody.is_closer.symm)
  exact h.balanced.append h.level henclosed.1

section Body

variable (h : Requirement text method tokens)
  (hwhole : scanFrom 2 true whole.toList = .ok ⟨tokens ++ opener :: (inner ++ [closer]), finish⟩)
  (hopener : opener.is "\x7b" = true) (hbody : Closes 0 inner closer)

include h hwhole hopener hbody in
theorem ofText_body : ofText (withBody [whole]) =
    (readMembers (scopeAt (lineCount whole + 2)) (tokens ++ opener ::
      (inner ++ closer :: [braceAt (lineCount whole + 2)]))).result := by
  rw [ofText_eq_result_readMembers hwhole (h.balanced_append hopener hbody), List.append_assoc,
    List.cons_append, List.append_assoc]
  rfl

include hwhole in
theorem spelled_body : ∀ token ∈ tokens ++ opener :: (inner ++ closer ::
    [braceAt (lineCount whole + 2)]), Spelled token.kind token.text.toList := by
  have hspelled := spelled_of_mem (scan_bodyText_singleton hwhole)
  rwa [List.append_assoc, List.cons_append, List.append_assoc] at hspelled

include h hwhole hopener hbody in
theorem ofText_of_faults (hfault : Faults (Member.read "P") (scopeAt (lineCount whole + 2))
      (tokens ++ opener :: (inner ++ closer :: [braceAt (lineCount whole + 2)])) fault) :
    ofText (withBody [whole]) = .error fault := by
  rw [h.ofText_body hwhole hopener hbody]
  obtain ⟨token, back, rfl, hcloser, hsemicolon, -⟩ := exists_member_of_reads_body h.reads
  exact (faults_readMembers hcloser hsemicolon hfault).result_eq

include h hwhole hopener hbody in
theorem ofText_of_reads (hread : Reads (Member.read "P") (scopeAt (lineCount whole + 2))
      (tokens ++ opener :: (inner ++ closer :: [braceAt (lineCount whole + 2)])) member
      [braceAt (lineCount whole + 2)]) :
    ofText (withBody [whole]) = .ok (ofMembers [member]) := by
  rw [h.ofText_body hwhole hopener hbody]
  obtain ⟨token, back, rfl, hcloser, hsemicolon, -⟩ := exists_member_of_reads_body h.reads
  exact (reads_readMembers_singleton hcloser hsemicolon hread (by simp)).result_eq

end Body

/-- A body behind a requirement is refused, unless there is a where clause and the body is a group:
the clause then goes on to the end of the body. -/
theorem refuses_body_iff (h : Requirement text method tokens)
    (hwhole : scanFrom 2 true whole.toList = .ok ⟨tokens ++ opener :: (inner ++ [closer]), finish⟩)
    (hopener : opener.is "\x7b" = true) (hbody : Closes 0 inner closer) :
    ((∃ fault, ofText (withBody [whole]) = .error fault ∧ fault.kind = .parsing) ↔
      ¬ (HasClause text tokens ∧ Bracket.IsGroup .curly (opener :: (inner ++ [closer])))) ∧
    (¬ HasClause text tokens → ofText (withBody [whole]) = .error {
      cause := .methodBody
      place := { protocol? := some "P", member? := some method.name }
      line? := some opener.line }) := by
  have hspelled := spelled_body hwhole
  obtain ⟨token, back, -, -, -, hmember⟩ := exists_member_of_reads_body h.reads
  have hnone (hclause : ¬ HasClause text tokens) : ofText (withBody [whole]) = .error {
      cause := .methodBody
      place := { protocol? := some "P", member? := some method.name }
      line? := some opener.line } :=
    h.ofText_of_faults hwhole hopener hbody (Member.faults_body hspelled hopener hmember hclause)
  refine ⟨⟨?_, ?_⟩, hnone⟩
  -- The clause takes the whole group, so the method ends at the brace of the protocol after all.
  · rintro ⟨fault, herror, -⟩ ⟨hclause, hgroup⟩
    obtain ⟨method', hread⟩ :=
      Member.exists_reads_body hspelled hopener hbody hmember hclause hgroup
    have haccepted := h.ofText_of_reads hwhole hopener hbody hread
    cases herror.symm.trans haccepted
  · intro hnot
    by_cases hclause : HasClause text tokens
    · obtain ⟨fault, hkind, hfault⟩ := Member.exists_faults_body hspelled hopener hbody hmember
        hclause fun hgroup ↦ hnot ⟨hclause, hgroup⟩
      exact ⟨fault, h.ofText_of_faults hwhole hopener hbody hfault, hkind⟩
    · exact ⟨_, hnone hclause, rfl⟩

/-- What is scanned and read of a requirement and of the same with a body can be found by
evaluation. -/
theorem exists_requirement (text whole : String) (group : List Token) (clause : Bool)
    (h : (scanFrom 2 true text.toList).toOption.any (fun scanned ↦
      let tokens := scanned.items ++ [braceAt (lineCount text + 2)]
      let body := readBody "P" 1 (scopeAt (lineCount text + 2)) tokens
      let signature := Member.readSignature (scopeAt (lineCount text + 2)) tokens
      (scanFrom 2 true whole.toList).toOption.any (·.items = scanned.items ++ group) &&
        (Balanced scanned.items && body.rest = [braceAt (lineCount text + 2)] &&
          body.result.toOption.any fun
            | [.method _] => true
            | _ => false) &&
        (signature.result.toOption.any fun _ ↦ stands ["where"] signature.rest == clause)) = true) :
    ∃ method tokens finish, Requirement text method tokens ∧
      scanFrom 2 true whole.toList = .ok ⟨tokens ++ group, finish⟩ ∧
      (HasClause text tokens ↔ clause = true) := by
  obtain ⟨scanned, hscanned, h⟩ := (Option.any_eq_true _ _).mp h
  simp only [Bool.and_eq_true, Option.any_eq_true, decide_eq_true_eq,
    Except.toOption_eq_some_iff] at h hscanned
  obtain ⟨⟨⟨whole', hwhole, hitems⟩, ⟨hbalanced, hrest⟩, members, hmembers, hmethod⟩, draft, hdraft,
    hclause⟩ := h
  obtain ⟨method, rfl⟩ : ∃ method, members = [.method method] := by
    split at hmethod
    · exact ⟨_, rfl⟩
    · cases hmethod
  refine ⟨method, scanned.items, whole'.finish, ⟨⟨scanned.finish, hscanned⟩, hbalanced, hmembers,
    hrest⟩, ?_, ?_⟩
  · rw [hwhole, ← hitems]
  · constructor
    · rintro ⟨draft', rest, hsignature, hwhere⟩
      obtain ⟨-, rfl⟩ := hsignature.value_unique ⟨hdraft, rfl⟩
      exact (eq_of_beq hclause).symm.trans hwhere
    · exact fun htrue ↦ ⟨draft, _, ⟨hdraft, rfl⟩, (eq_of_beq hclause).trans htrue⟩

/-- A body behind a result. -/
theorem refuses_body_iff_result : ∃ method tokens, ∃ opener closer : Token, ∃ inner finish,
    Requirement "func f() async -> Int" method tokens ∧
      scanFrom 2 true "func f() async -> Int \x7b return [1] \x7d".toList =
        .ok ⟨tokens ++ opener :: (inner ++ [closer]), finish⟩ ∧
      opener.is "\x7b" = true ∧ Closes 0 inner closer ∧
      ¬ HasClause "func f() async -> Int" tokens ∧
      ofText (withBody ["func f() async -> Int \x7b return [1] \x7d"]) = .error {
        cause := .methodBody
        place := { protocol? := some "P", member? := some method.name }
        line? := some opener.line } := by
  let opener : Token := ⟨.punctuation, "\x7b", 2, false⟩
  let closer : Token := ⟨.punctuation, "\x7d", 2, false⟩
  let inner : List Token := [⟨.identifier, "return", 2, false⟩, ⟨.punctuation, "[", 2, false⟩,
    ⟨.number, "1", 2, false⟩, ⟨.punctuation, "]", 2, false⟩]
  obtain ⟨method, tokens, finish, htext, hwhole, hclause⟩ := exists_requirement
    "func f() async -> Int" "func f() async -> Int \x7b return [1] \x7d"
    (opener :: (inner ++ [closer])) false (by decide +kernel)
  have hbody : Closes 0 inner closer := ⟨rfl, by decide, rfl⟩
  have hnone : ¬ HasClause "func f() async -> Int" tokens := by simp [hclause]
  exact ⟨method, tokens, opener, closer, inner, finish, htext, hwhole, rfl, hbody, hnone,
    (refuses_body_iff htext hwhole rfl hbody).2 hnone⟩

/-- A body behind a where clause is taken for a part of the clause. -/
theorem not_forall_refuses_body : ¬ ∀ (text whole : String) (method : Method) (tokens : List Token)
    (opener closer : Token) (inner : List Token) (finish : Finish),
    Requirement text method tokens →
    scanFrom 2 true whole.toList = .ok ⟨tokens ++ opener :: (inner ++ [closer]), finish⟩ →
    opener.is "\x7b" = true → Closes 0 inner closer →
      ∃ fault, ofText (withBody [whole]) = .error fault ∧ fault.kind = .parsing := by
  intro h
  let opener : Token := ⟨.punctuation, "\x7b", 2, false⟩
  let closer : Token := ⟨.punctuation, "\x7d", 2, false⟩
  obtain ⟨method, tokens, finish, htext, hwhole, -⟩ := exists_requirement
    "func f() where T == U" "func f() where T == U \x7b \x7d" (opener :: ([] ++ [closer])) true
    (by decide +kernel)
  obtain ⟨fault, hfault, -⟩ := h _ _ _ _ _ _ _ _ htext hwhole rfl ⟨rfl, by decide, rfl⟩
  have hok : (ofText (withBody ["func f() where T == U \x7b \x7d"])).isOk = true := by
    decide +kernel
  rw [hfault] at hok
  cases hok

end Requirement

end Protocol

end TestDouble
