import TestDouble.Proofs.Protocol.Restorable

/-!
# Signatures that declare their methods again

The signature of a method is put into the body of a protocol of its own. It is scanned as the tokens
of its parts, each part is recovered from them, and they leave the brace of the body to the body. So
the protocol has one method, which agrees with the first one.

That needs a condition on the tokens that the method was read from. It is the one under which the
text of a type restores the type and the text of a group its tokens.
-/

namespace TestDouble

open Reader Token
open SwiftType (Tame)

namespace Method

/-! ## The end of a signature -/

private theorem endsSignature_where (back : List Token) :
    EndsSignature (inLine .keyword "where" :: back) :=
  ⟨.cons (by decide) rfl, .of_cons (by decide)⟩

private theorem endsSignature_brace (line : Nat) : EndsSignature [Protocol.braceAt line] := by
  have hbrace : "\x7d" ∉ SwiftType.typeBeginnings ∧ "\x7d" ∉ "->" :: "(" :: effectWords := by
    decide
  exact ⟨.cons hbrace.1 rfl, .of_cons hbrace.2⟩

/-- A method is accepted where it ends, if its parameters can be told apart. -/
theorem exists_reads_close_brace (draft : Draft)
    (hclash : Parameter.clash? draft.parameters = none) (scope : Scope) (line : Nat) :
    ∃ method, Reads (close draft) scope [Protocol.braceAt line] method [Protocol.braceAt line] ∧
      method.toDraft = { draft with result? := draft.result?.filter fun type ↦ !type.isVoid } := by
  obtain ⟨_, hcheck, -⟩ := Draft.check_of_distinct draft hclash
  obtain ⟨method, hread⟩ := @exists_reads_close scope [Protocol.braceAt line] _ _ draft hcheck rfl
    rfl rfl
  exact ⟨method, hread, Draft.toDraft_eq_of_check (check_of_reads_close hread)⟩

/-- The where clause as a signature says it. -/
def Draft.conditionText (draft : Draft) : String :=
  if draft.whereClause = "" then "" else " where " ++ draft.whereClause

/-- The text ends a signature with the condition, up to the brace behind it. -/
structure RecoversEnd (condition text : String) (tokens : List Token) : Prop where
  spells : Spells [] text.toList tokens
  endsWord : EndsWord text.toList
  endsSignature : ∀ line, EndsSignature (tokens ++ [Protocol.braceAt line])
  nests : ∀ opened, Nests (· ≠ .curly) opened tokens opened
  reads : ∀ draft : Draft, Parameter.clash? draft.parameters = none → ∀ scope line, ∃ method,
    Reads (readAfterResult draft) scope (tokens ++ [Protocol.braceAt line]) method
        [Protocol.braceAt line] ∧
      method.toDraft = { draft with
        result? := draft.result?.filter fun type ↦ !type.isVoid
        whereClause := condition }

private theorem recoversEnd_none : RecoversEnd "" "" [] where
  spells := .nil
  endsWord := nofun
  endsSignature := endsSignature_brace
  nests _ := .nil
  reads draft hclash scope line := by
    obtain ⟨method, hclose, htoDraft⟩ :=
      exists_reads_close_brace { draft with whereClause := "" } hclash scope line
    refine ⟨method, (reads_accept_bind_iff_of_not_stands rfl).mpr ?_, htoDraft⟩
    exact reads_pure_bind_iff.mpr hclose

private theorem RecoversCondition.recoversEnd {condition : String} {item : List Token}
    (h : RecoversCondition condition item) :
    RecoversEnd condition (" where " ++ condition) (inLine .keyword "where" :: item) where
  spells := by
    have hword : Spelled .keyword "where".toList := by decide +kernel
    have hblank : EndsWord (' ' :: condition.toList ++ []) := .of_cons (by decide +kernel)
    rw [String.toList_append]
    exact .blank (.word hword (by decide) hblank (.blank h.spells))
  endsWord := by
    rw [String.toList_append]
    exact .of_cons (by decide +kernel)
  endsSignature _ := endsSignature_where _
  nests opened := by
    have hwhere : Nests (· ≠ .curly) opened [inLine .keyword "where"] opened :=
      .of_text (by decide)
    exact hwhere.append (h.nests opened)
  reads draft hclash scope line := by
    obtain ⟨method, hclose, htoDraft⟩ :=
      exists_reads_close_brace { draft with whereClause := condition } hclash scope line
    refine ⟨method, (reads_accept_bind_iff_of_is rfl).mpr ?_, htoDraft⟩
    exact (h.reads scope _ rfl).bind_iff.mpr hclose

theorem Restorable.exists_recoversEnd {method : Method} (h : method.Restorable) :
    ∃ tokens, RecoversEnd method.whereClause method.conditionText tokens := by
  rw [Draft.conditionText]
  split
  · next hnone => exact ⟨[], hnone ▸ recoversEnd_none⟩
  · obtain ⟨item, hitem⟩ := h.condition
    exact ⟨_, RecoversCondition.recoversEnd hitem⟩

/-! ## Methods that agree -/

/-- Methods that differ in nothing but their lines agree with the same methods. -/
theorem Agrees.of_unlined {method method' other : Method} (h : method.Agrees method')
    (heq : method'.unlined = other.unlined) : method.Agrees other where
  name_eq := h.name_eq.trans (congrArg (·.name) heq)
  parameters := congrArg (·.parameters) heq ▸ h.parameters
  result?_eq := h.result?_eq.trans (congrArg (·.result?) heq)
  effects_eq := h.effects_eq.trans (congrArg (·.effects) heq)
  genericClause_eq := h.genericClause_eq.trans (congrArg (·.genericClause) heq)
  whereClause_eq := h.whereClause_eq.trans (congrArg (·.whereClause) heq)

/-- A method with labels that are not repeated agrees with the method. -/
theorem agrees_of_toDraft {method method' : Method} {isStatic : Bool} {line? : Option Int}
    (h : method'.toDraft = { method.toDraft with
      parameters := method.parameters.map Parameter.unrepeated
      result? := method.result?.filter fun type ↦ !type.isVoid
      isStatic
      line? }) : method.Agrees method' := by
  have hresult : (method.result?.filter fun type ↦ !type.isVoid) = method.result? := by
    rcases hsome : method.result? with _ | type
    · rfl
    · exact Option.filter_eq_some_iff.mpr ⟨rfl, by simp [method.result_not_void type hsome]⟩
  have hparameters : List.Forall₂ Parameter.Agrees method.parameters
      (method.parameters.map Parameter.unrepeated) :=
    List.forall₂_map_right_iff.mpr
      (List.forall₂_same.mpr fun parameter _ ↦ parameter.agrees_unrepeated)
  constructor <;> rw [h]
  · exact hparameters
  · exact hresult.symm

private theorem clash?_unrepeated (method : Method) :
    Parameter.clash? (method.parameters.map Parameter.unrepeated) = none := by
  have hlabels : Parameter.writtenLabels (method.parameters.map Parameter.unrepeated) =
      Parameter.writtenLabels method.parameters := by
    rw [Parameter.writtenLabels, List.map_map]
    exact congrArg _ (List.map_congr_left fun parameter _ ↦
      parameter.agrees_unrepeated.label_eq.symm)
  refine (Parameter.clashFrom_of_labels [] (hlabels ▸ method.labels_nodup) fun _ _ ↦
    List.not_mem_nil).2 ?_ fun _ _ ↦ List.not_mem_nil
  rw [List.map_map]
  exact method.names_nodup

/-! ## Reading a signature again -/

private theorem signature_eq (method : Method) : method.signature =
    "func " ++ method.name ++ method.signatureText ++ method.conditionText := by
  simp [signature, Draft.signatureText, Draft.resultText, Draft.conditionText, effectsText,
    Parameter.clauseText, toString, String.append_assoc]

/-- A method whose parts are recovered is read again from the tokens of its signature. -/
theorem Restorable.exists_reads {method : Method} (h : method.Restorable) :
    ∃ name back, NameInLine name ∧ name.text = method.name ∧
      Spells [] method.signature.toList (inLine .keyword "func" :: name :: back) ∧
      Nests (· ≠ .curly) [] (inLine .keyword "func" :: name :: back) [] ∧
      ∀ scope line, ∃ method', method.Agrees method' ∧
        Reads (readAfterName name.text 1 false) scope (back ++ [Protocol.braceAt line]) method'
          [Protocol.braceAt line] := by
  obtain ⟨name, hname, htext⟩ := h.name.exists_nameInLine
  obtain ⟨body, hbody⟩ := h.toRecoverable.exists_recovers 1 false
  obtain ⟨last, hlast⟩ := h.exists_recoversEnd
  -- A signature is the keyword, the name, what is read behind the name, and the condition.
  refine ⟨name, body ++ last, hname, htext, ?_, ?_, fun scope line ↦ ?_⟩
  · have hkeyword : Spelled .keyword "func".toList := by decide +kernel
    have hends : EndsWord (method.conditionText.toList ++ []) := by
      rw [List.append_nil]
      exact hlast.endsWord
    have hback := (hbody.spells _ hends).append hlast.spells
    have hnamed := hname.spells
      (by rw [List.append_assoc]; exact h.toRecoverable.endsWord_signatureText _) hback
    have hblank : EndsWord (' ' :: (name.text.toList ++
        (method.signatureText.toList ++ method.conditionText.toList)) ++ []) :=
      .of_cons (by decide +kernel)
    have hspells := Spells.word hkeyword (by decide) hblank (.blank hnamed)
    rw [signature_eq, ← htext]
    simpa using hspells
  · have hkeyword : Nests (· ≠ .curly) [] [inLine .keyword "func"] [] := .of_text (by decide)
    have hnamed : Nests (· ≠ .curly) [] [name] [] := .of_isName hname.spelled hname.isName
    exact hkeyword.append (hnamed.append ((hbody.nests []).append (hlast.nests [])))
  · have hread := hbody.reads scope _ (hlast.endsSignature line)
    obtain ⟨method', hend, htoDraft⟩ := hlast.reads { method.toDraft with
      parameters := method.parameters.map Parameter.unrepeated
      whereClause := ""
      isStatic := false
      line? := some (1 : Nat) } method.clash?_unrepeated scope line
    refine ⟨method', agrees_of_toDraft htoDraft, ?_⟩
    rw [htext, readAfterName_eq_bind_readAfterResult, List.append_assoc]
    exact hread.bind_iff.mpr hend

/-- Alike tokens make methods that differ in nothing but their lines. -/
theorem exists_reads_alike {method : Method} {name : String} {line : Nat} (line' : Nat)
    {isStatic : Bool} {scope : Scope} {tokens tokens' : List Token} {last : Token}
    (htokens : List.Forall₂ (Token.Alike anyLines) tokens tokens')
    (h : Reads (readAfterName name line isStatic) scope (tokens ++ [last]) method [last]) :
    ∃ method', method.unlined = method'.unlined ∧
      Reads (readAfterName name line' isStatic) scope (tokens' ++ [last]) method' [last] := by
  have hlast : Token.Alike anyLines last last := .intro _ _ _ trivial
  have halike := @readAfterName_alike anyLines name line line' trivial isStatic
  obtain ⟨method', rest, hmethod, hread, hrest⟩ :=
    halike.exists_reads ⟨rfl, trivial⟩ (List.rel_append htokens (.cons hlast .nil)) h
  -- A single token is left in both readings, and that is the last one.
  have hsuffix := leavesSuffix_receding.methodAfterName _ _ _ hread
  have hpart : rest <:+ [last] := List.suffix_of_suffix_length_le hsuffix
    (List.suffix_append tokens' [last]) hrest.length_eq.ge
  obtain rfl := hpart.eq_of_length hrest.length_eq.symm
  exact ⟨method', hmethod.unlined_eq, hread⟩

end Method

/-! ## Protocols with one method -/

/-- Where no brace is closed twice, none is closed that another token has not opened. -/
theorem Nests.balanced {tokens : List Token} (h : Nests (· ≠ Bracket.curly) [] tokens [])
    (hspelled : ∀ token ∈ tokens, Spelled token.kind token.text.toList) : Balanced tokens := by
  rintro front ⟨back, rfl⟩
  obtain ⟨opened, hfront, -⟩ := h.exists_of_append
  have hspelled := fun token htoken ↦ hspelled token (List.mem_append_left back htoken)
  have hle := hfront.closers_le .curly (not_not_intro rfl)
  rw [Bracket.closers_eq_countP (by decide) hspelled,
    Bracket.openers_eq_countP (by decide) hspelled, List.count_nil] at hle
  have htexts : Bracket.curly.opener = "\x7b" ∧ Bracket.curly.closer = "\x7d" := ⟨rfl, rfl⟩
  rw [htexts.1, htexts.2] at hle
  omega

/-- A text that is spelled out is scanned as the same tokens where a line begins with it. -/
theorem Token.Spells.exists_scan_fresh {text : String} {first : Token} {others : List Token}
    (h : Spells [] text.toList (first :: others)) (line : Nat) :
    ∃ line' others' finish, List.Forall₂ (Token.Alike anyLines) others others' ∧
      scanFrom line true text.toList =
        .ok ⟨⟨first.kind, first.text, line', true⟩ :: others', finish⟩ := by
  obtain ⟨last, again, halike, hscan⟩ := h.exists_scan line
  obtain ⟨finish, hfresh⟩ := exists_scanFrom_fresh hscan
  rcases halike with _ | ⟨⟨kind, text, fresh, -⟩, hothers⟩
  exact ⟨_, _, finish, hothers, hfresh⟩

private theorem Member.reads_method (protocol : String) (line : Nat) {name : Token}
    {back rest : List Token} {scope : Scope} {method : Method} (hname : name.isName = true)
    (h : Reads (Method.readAfterName name.text line false) (scope.within name.text) back method
      rest) :
    Reads (Member.read protocol) scope (⟨.keyword, "func", line, true⟩ :: name :: back)
      (.method method) rest := by
  let keyword : Token := ⟨.keyword, "func", line, true⟩
  have hfunc : "func" ∉ accessLevels ++ idleModifiers ++ staticModifiers := by decide
  have hstop : Reads Lead.turn scope (keyword :: name :: back) .stop (keyword :: name :: back) :=
    reads_turn_stop nofun hfunc
  have hleads : Reads Lead.read scope (keyword :: name :: back) [] (keyword :: name :: back) :=
    hstop.repeatFrom_stop
  rw [Member.read_eq]
  refine hleads.bind_iff.mpr ?_
  have hread := @Member.readAfterLeads_method protocol scope back [] keyword name rfl hname
  have hmember : Reads (Member.method <$> Method.readAfterName name.text keyword.line false)
      (scope.within name.text) back (.method method) rest := reads_map_iff.mpr ⟨method, h, rfl⟩
  exact ⟨(congrArg Reading.result hread).trans hmember.result_eq,
    (congrArg Reading.rest hread).trans hmember.rest_eq⟩

theorem Method.restated_eq (method : Method) :
    method.restated = Protocol.withBody [method.signature] := by
  simp [restated, Protocol.withBody, Protocol.bodyText, toString, String.append_assoc]

/-- A method whose parts are recovered is the only one of the protocol that its signature makes. -/
theorem Method.Restorable.exists_ofText {method : Method} (h : method.Restorable) :
    ∃ protocol' method', Protocol.ofText method.restated = .ok protocol' ∧
      protocol'.methods = [method'] ∧ method.Agrees method' := by
  obtain ⟨name, back, hname, -, hspells, hnests, hreads⟩ := h.exists_reads
  obtain ⟨line', again, finish, halike, hscan⟩ := hspells.exists_scan_fresh 2
  have hbalanced : Balanced (⟨.keyword, "func", line', true⟩ :: again) := by
    have hsame := halike.imp fun token token' (h : Token.Alike anyLines token token') ↦
      (by cases h; exact ⟨rfl, rfl⟩ : SameWord token token')
    exact (hnests.balanced hspells.spelled).of_sameWord (.cons ⟨rfl, rfl⟩ hsame)
  rcases halike with _ | ⟨@⟨kind, text, fresh, _, nameLine, -⟩, hback⟩
  let line := Protocol.lineCount method.signature + 2
  obtain ⟨method', hagrees, hread⟩ := hreads ((Protocol.scopeAt line).within text) line
  obtain ⟨method'', hunlined, hread⟩ := Method.exists_reads_alike line' hback hread
  have hisName : Token.isName ⟨kind, text, nameLine, fresh⟩ = true := hname.isName
  have hmember := Member.reads_method "P" line' hisName hread
  refine ⟨Protocol.ofMembers [.method method''], method'', ?_, rfl, hagrees.of_unlined hunlined⟩
  rw [Method.restated_eq, Protocol.ofText_eq_result_readMembers hscan hbalanced]
  exact (Protocol.reads_readMembers_singleton rfl rfl hmember (List.cons_ne_nil _ _)).result_eq

/-! ## Methods of a protocol -/

/-- The tokens stand together in the source, and the method is what is read of them. -/
def Method.ReadFrom (method : Method) (source : String) (consumed : List Token) : Prop :=
  ∃ stream scope isStatic rest, Tokens.scan source = .ok stream ∧ consumed <:+: stream.items ∧
    Reads (read isStatic) scope (consumed ++ rest) method rest

theorem Method.ReadFrom.restorable {method : Method} {source : String} {consumed : List Token}
    (h : method.ReadFrom source consumed) (htame : Tame consumed) (hapart : Apart consumed) :
    method.Restorable := by
  obtain ⟨stream, scope, isStatic, rest, hscan, hpart, hread⟩ := h
  have hspelled : ∀ token ∈ consumed, Spelled token.kind token.text.toList :=
    fun token htoken ↦ spelled_of_mem hscan token (hpart.subset htoken)
  obtain ⟨consumed', hconsumed, hrestorable⟩ := keeps_read hspelled hapart htame scope _ hread
  obtain rfl := List.append_cancel_right hconsumed
  exact hrestorable (List.infix_refl _)

/-- The methods of a protocol are read from its source. -/
theorem Protocol.exists_readFrom {source : String} {protocol : Protocol} {method : Method}
    (h : ofText source = .ok protocol) (hmethod : method ∈ protocol.methods) :
    ∃ consumed, method.ReadFrom source consumed := by
  obtain ⟨excerpts, hexcerpts, excerpt, hmem, hread⟩ := exists_excerpt_of_ofText h
  obtain ⟨stream, hscan, hpart⟩ := Excerpt.exists_infix_of_mem hexcerpts hmem
  have hkeeps (isStatic : Bool) (scope : Scope) (tokens : List Token) : Keeps stream.items
      (fun method ↦ ∃ consumed, method.ReadFrom source consumed) (Method.read isStatic) scope
        tokens := by
    intro method rest hmethod
    obtain ⟨consumed, rfl⟩ := (leavesSuffix_receding.method isStatic).1 hmethod
    exact ⟨consumed, rfl, fun hconsumed ↦
      ⟨consumed, stream, scope, isStatic, rest, hscan, hconsumed, hmethod⟩⟩
  obtain ⟨consumed, heq, hmethods⟩ := Keeps.declaration hkeeps ⟨hread, rfl⟩
  exact hmethods ((List.IsPrefix.isInfix ⟨_, heq.symm⟩).trans hpart) method hmethod

/-- Every method of a protocol is read from tokens of the source. If these are tame and none of them
touch that must not, then the signature of the method declares it again, and nothing else. -/
theorem restated_agrees_of_tame {source : String} {protocol : Protocol} {method : Method}
    (h : Protocol.ofText source = .ok protocol) (hmethod : method ∈ protocol.methods) :
    (∃ consumed, method.ReadFrom source consumed) ∧
      ∀ consumed, method.ReadFrom source consumed → Tame consumed → Apart consumed →
        ∃ protocol' method', Protocol.ofText method.restated = .ok protocol' ∧
          protocol'.methods = [method'] ∧ method.Agrees method' :=
  ⟨Protocol.exists_readFrom h hmethod, fun _ hread htame hapart ↦
    (hread.restorable htame hapart).exists_ofText⟩

/-- A method over several lines, which its signature declares on one. -/
theorem restated_agrees_of_tame_lines :
    let source := "protocol P \x7b\nfunc fold<K,\nV>(_ a: [K : V],\nby f : (V,V)->V...\n) " ++
      "async\nrethrows -> [ K:V ]?\nwhere K : Hashable , V == K . Value\n\x7d"
    let signature := "func fold<K, V>(_ a: [K: V], by f: (V, V) -> V...) async rethrows " ++
      "-> [K: V]? where K: Hashable, V == K.Value"
    ∃ protocol method consumed, Protocol.ofText source = .ok protocol ∧
      method ∈ protocol.methods ∧ method.ReadFrom source consumed ∧ Tame consumed ∧
      Apart consumed ∧ method.signature = signature ∧
      ∃ protocol' method', Protocol.ofText method.restated = .ok protocol' ∧
        protocol'.methods = [method'] ∧ method.Agrees method' := by
  intro source signature
  have hitems : (Tokens.scan source).toOption.any (fun stream ↦ decide (Apart stream.items) &&
      stream.items.all fun token ↦ !token.is "inout" &&
        token.text ∉ "throws" :: SwiftType.attributesWithArguments) = true := by
    decide +kernel
  have hread : (Protocol.ofText source).toOption.any (fun protocol ↦
      protocol.methods.map (·.signature) = [signature]) = true := by
    decide +kernel
  obtain ⟨stream, hscan, hitems⟩ := (Option.any_eq_true _ _).mp hitems
  rw [Except.toOption_eq_some_iff] at hscan
  obtain ⟨hapart, htokens⟩ := (Bool.and_eq_true _ _).mp hitems
  obtain ⟨protocol, hprotocol, hmethods⟩ := (Option.any_eq_true _ _).mp hread
  rw [Except.toOption_eq_some_iff] at hprotocol
  obtain ⟨method, hmethod, hsignature⟩ := List.map_eq_singleton_iff.mp (of_decide_eq_true hmethods)
  have hmem : method ∈ protocol.methods := hmethod ▸ List.mem_singleton_self method
  obtain ⟨⟨consumed, hconsumed⟩, hagrees⟩ := restated_agrees_of_tame hprotocol hmem
  -- The tokens of the method are among those of the source, all of which are tame.
  have hpart : consumed <:+: stream.items := by
    obtain ⟨stream', _, _, _, hscan', hpart, -⟩ := hconsumed
    obtain rfl := Except.ok.inj (hscan.symm.trans hscan')
    exact hpart
  have htame : Tame consumed := SwiftType.tame_of_forall fun token htoken ↦ by
    simpa using List.all_eq_true.mp htokens token (hpart.subset htoken)
  have hapart : Apart consumed := (of_decide_eq_true hapart).of_isInfix hpart
  exact ⟨protocol, method, consumed, hprotocol, hmem, hconsumed, htame, hapart, hsignature,
    hagrees consumed hconsumed htame hapart⟩

end TestDouble
