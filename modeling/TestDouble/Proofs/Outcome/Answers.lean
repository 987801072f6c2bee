import TestDouble.Outcome
import TestDouble.Proofs.Protocol.Compositional
import TestDouble.Proofs.Protocol.Lead
import TestDouble.Proofs.Reader.Basic
import TestDouble.Proofs.Token.Layout

/-!
# One outcome for every protocol

Every protocol that is located in a text has its own outcome, under the name by which it was
located: a test double, or a fault that names the protocol. The kind of the fault tells how far the
protocol got. Its tokens cannot be read, or a signature contradicts itself, or it was read and no
names could be found for its members. A text has a single fault of its own only if it cannot be cut
into tokens.
-/

namespace TestDouble

open Token

/-! ## Faults of scanning -/

theorem Token.Unscannable.kind_eq {cause : Cause} {text : List Char} (h : Unscannable cause text) :
    cause.kind = .parsing := by
  cases h <;> rfl

theorem Token.fault_of_scanFrom {line : Nat} {fresh : Bool} {cs : List Char} {fault : Fault}
    (h : scanFrom line fresh cs = .error fault) :
    fault.kind = .parsing ∧ fault.place = {} ∧ fault.line?.isSome = true := by
  fun_induction scanFrom line fresh cs with
  | case1 => cases h
  | case2 line fresh c cs cause hpiece =>
    obtain rfl := Except.error.inj h
    exact ⟨(Unscannable.of_firstPiece hpiece).kind_eq, rfl, rfl⟩
  | case3 line fresh c cs n text nextLine hpiece ih => exact ih h
  | case4 line fresh c cs n text nextLine kind hpiece ih =>
    exact ih (Except.map_eq_error_iff.mp h)

/-! ## Faults of reading -/

/-- A fault of reading names the protocol that is read. It lies on a line where the tokens cannot be
read, and on none where they contradict each other. -/
inductive Fault.OfReading (protocol? : Option String) : Fault → Prop
  | parsing {cause : Cause} {member? : Option String} {line : Int} : cause.kind = .parsing →
      OfReading protocol? ⟨cause, ⟨protocol?, member?⟩, some line⟩
  | signature {cause : Cause} {member? : Option String} : cause.kind = .signature →
      OfReading protocol? ⟨cause, ⟨protocol?, member?⟩, none⟩

namespace Reader

/-- Every fault of the reader is one of reading. -/
def Accounts ⦃α : Type⦄ (read : Reader α) : Prop :=
  ∀ ⦃scope : Scope⦄ ⦃tokens : List Token⦄ ⦃fault : Fault⦄,
    (read scope tokens).result = .error fault → fault.OfReading scope.place.protocol?

theorem accounts_fail {α : Type} {cause : Cause} (line? : Option Nat) (h : cause.kind = .parsing) :
    Accounts (fail cause line? : Reader α) := by
  intro scope tokens fault hfault
  obtain rfl := Except.error.inj hfault
  exact .parsing h

theorem accounts_bind {α β : Type} {read : Reader α} {next : α → Reader β} (h : Accounts read)
    (hnext : ∀ a, Accounts (next a)) : Accounts (read >>= next) := by
  intro scope tokens fault hfault
  rcases hresult : (read scope tokens).result with fault' | a
  · rw [(bind_of_error hresult).1] at hfault
    obtain rfl := Except.error.inj hfault
    exact h hresult
  · rw [(bind_of_ok hresult).1] at hfault
    exact hnext a hfault

theorem accounts_group (bracket : Bracket) : Accounts (group bracket) := by
  intro scope tokens fault hfault
  rw [group] at hfault
  split at hfault
  · cases hfault
  · exact accounts_fail _ rfl hfault
  · exact accounts_fail _ rfl hfault

theorem accounts_repeatFrom {α : Type} {turn : Nat → Reader (Turn α)}
    (h : ∀ number, Accounts (turn number)) (hadvances : ∀ number, Advances (turn number))
    (number : Nat) : Accounts (repeatFrom turn number) := by
  intro scope tokens fault hfault
  induction hlength : tokens.length using Nat.strongRecOn generalizing tokens number with
  | ind length ih =>
    rcases hresult : (turn number scope tokens).result with fault' | _ | item | item
    · rw [(repeatFrom_of_error hresult).1] at hfault
      obtain rfl := Except.error.inj hfault
      exact h number hresult
    · rw [(repeatFrom_of_stop hresult).1] at hfault
      cases hfault
    · rw [(repeatFrom_of_last hresult).1] at hfault
      cases hfault
    · -- The turns that follow have fewer tokens, so their faults are accounted for.
      have hrest := (hadvances number).length_lt hresult
      rw [(repeatFrom_of_more hresult hrest).1, Except.map_eq_error_iff] at hfault
      exact ih _ (hlength ▸ hrest) (number + 1) hfault rfl

theorem accounts_compositional : Compositional Accounts where
  pure _ _ _ _ hfault := by cases hfault
  bind := accounts_bind
  onTokens h _ tokens _ hfault := h tokens hfault
  inMember member _ h scope tokens fault hfault :=
    @h { scope with place.member? := some member } tokens fault hfault
  tell _ _ _ _ hfault := by cases hfault
  fail := accounts_fail
  refuse h _ _ _ hfault := by
    obtain rfl := Except.error.inj hfault
    exact .signature h
  next? _ _ _ hfault := by cases hfault
  group := accounts_group
  repeatFrom := accounts_repeatFrom

end Reader

theorem Excerpt.fault_of_read {excerpt : Excerpt} {fault : Fault}
    (h : excerpt.read.result = .error fault) : fault.OfReading (some excerpt.name) :=
  Reader.accounts_compositional.declaration excerpt.line h

/-! ## Faults of deriving -/

theorem Mock.fault_of_checkMembers {mock : Mock} {fault : Fault}
    (h : mock.checkMembers = .error fault) :
    fault.kind = .naming ∧ fault.place.protocol? = some mock.protocol := by
  rw [checkMembers] at h
  split at h
  · obtain rfl := Except.error.inj h
    exact ⟨rfl, rfl⟩
  · cases h

theorem FieldName.kind_of_assign {methods : List Method} {reserved : List String} {fault : Fault}
    (h : assign methods reserved = .error fault) : fault.kind = .naming := by
  simp only [assign] at h
  split at h
  · obtain rfl := Except.error.inj h
    rfl
  · cases h

theorem Mock.fault_of_ofProtocol {style : Style} {known : Catalogue} {protocol : Protocol}
    {fault : Fault} (h : Mock.ofProtocol style known protocol = .error fault) :
    fault.kind = .naming ∧ fault.place.protocol? = some protocol.name := by
  simp only [Mock.ofProtocol] at h
  split at h
  · next hassign =>
    obtain rfl := Except.error.inj h
    have hkind := FieldName.kind_of_assign hassign
    exact ⟨hkind, rfl⟩
  · exact fault_of_checkMembers h

/-! ## Names -/

namespace Excerpt

/-- A name does not end the header of a declaration. -/
theorem endsHeader_eq_false {token : Token} (hspelled : Spelled token.kind token.text.toList)
    (hkind : token.kind = .identifier) : endsHeader token = false := by
  have hnot {kind : Kind} {text : String} (htext : Spelled kind text.toList)
      (hne : kind ≠ .identifier) : token.is text = false := by
    by_contra his
    rw [Bool.not_eq_false] at his
    exact hne ((kind_of_is hspelled his htext).symm.trans hkind)
  have hmarks : ∀ text ∈ ["\x7b", "\x7d", ";"], Spelled .punctuation text.toList := by
    decide +kernel
  have hopen : token.is "\x7b" = false := hnot (hmarks _ (by decide)) (by decide)
  have hclose : token.is "\x7d" = false := hnot (hmarks _ (by decide)) (by decide)
  have hend : token.is ";" = false := hnot (hmarks _ (by decide)) (by decide)
  have hkeyword : token.is "protocol" = false := hnot spelled_protocol (by decide)
  simp [endsHeader, hopen, hclose, hend, hkeyword]

/-- A declaration goes on at least to its name. -/
theorem declaredName?_take {token : Token} {tokens : List Token} {name : String}
    (hspelled : ∀ token ∈ tokens, Spelled token.kind token.text.toList)
    (hname : declaredName? token tokens = some name) :
    declaredName? token (tokens.take (declarationExtent tokens)) = some name := by
  rw [declaredName?] at hname ⊢
  split at hname
  · next his =>
    rw [if_pos his]
    obtain ⟨first, hfirst, htext⟩ := Option.map_eq_some_iff.mp hname
    obtain ⟨hhead, hkind⟩ := Option.filter_eq_some_iff.mp hfirst
    obtain ⟨more, rfl⟩ := List.head?_eq_some_iff.mp hhead
    have hends : endsHeader first = false :=
      endsHeader_eq_false (hspelled first List.mem_cons_self) (by simpa using hkind)
    have hextent : declarationExtent (first :: more) ≠ 0 := by
      rw [declarationExtent, List.takeWhile_cons_of_pos (by simp [hends]), List.length_cons]
      split <;> omega
    rw [List.head?_take, if_neg hextent]
    exact hname
  · cases hname

/-- What is located is the words in front of a declaration, its keyword and its name. -/
theorem exists_keyword_of_mem {finish : Finish} {before tokens : List Token} {excerpt : Excerpt}
    (hspelled : ∀ token ∈ before ++ tokens, Spelled token.kind token.text.toList)
    (hmem : excerpt ∈ locateFrom finish before tokens) :
    ∃ lead keyword rest, excerpt.items = lead ++ keyword :: rest ∧ Leads lead ∧
      declaredName? keyword rest = some excerpt.name ∧
      ∀ token ∈ lead ++ keyword :: rest, Spelled token.kind token.text.toList := by
  fun_induction locateFrom finish before tokens with
  | case1 => cases hmem
  | case2 before token tokens name hname n lead declaration ih =>
    have hlead : ∀ t ∈ lead, t ∈ before := fun t ht ↦
      List.mem_of_mem_take (List.mem_reverse.mp ht)
    have htake : ∀ t ∈ tokens.take n, t ∈ tokens := fun t ↦ List.mem_of_mem_take
    have hdrop : ∀ t ∈ tokens.drop n, t ∈ tokens := fun t ↦ List.mem_of_mem_drop
    rcases List.mem_cons.mp hmem with rfl | hmem
    · refine ⟨lead, token, tokens.take n, rfl, leads_of_leadExtent before, ?_, ?_⟩
      · exact declaredName?_take (fun t ht ↦ hspelled t (by simp [ht])) hname
      · intro t ht
        refine hspelled t ?_
        simp only [List.mem_append, List.mem_cons] at ht ⊢
        exact ht.imp (hlead t) (.imp id (htake t))
    · refine ih (fun t ht ↦ hspelled t ?_) hmem
      simp only [declaration, List.mem_append, List.mem_reverse, List.mem_cons] at ht ⊢
      grind
  | case3 before token tokens hname ih =>
    refine ih (fun t ht ↦ hspelled t ?_) hmem
    simp only [List.mem_append, List.mem_cons] at ht ⊢
    grind

/-- A protocol is read under the name by which it is located. -/
theorem name_eq_of_read {text : String} {excerpts : List Excerpt} (h : ofText text = .ok excerpts)
    {excerpt : Excerpt} (hmem : excerpt ∈ excerpts) {protocol : Protocol}
    (hread : excerpt.read.result = .ok protocol) : protocol.name = excerpt.name := by
  obtain ⟨tokens, hscan, rfl⟩ := Except.map_eq_ok_iff.mp h
  obtain ⟨lead, keyword, rest, hitems, hlead, hname, hspelled⟩ :=
    exists_keyword_of_mem (by simpa using spelled_of_mem hscan) hmem
  rw [read, hitems] at hread
  exact name_eq_of_reads hlead hname hspelled ⟨hread, rfl⟩

end Excerpt

/-! ## Outcomes -/

theorem Fault.OfReading.protocol?_eq {protocol? : Option String} {fault : Fault}
    (h : fault.OfReading protocol?) : fault.place.protocol? = protocol? := by
  cases h <;> rfl

/-- A fault that names a protocol is not laid at the door of another one. -/
theorem Fault.within_eq_self {fault : Fault} {protocol? : Option String}
    (h : fault.place.protocol? = protocol?) : fault.within protocol? = fault := by
  obtain ⟨cause, ⟨protocol?', member?⟩, line?⟩ := fault
  obtain rfl : protocol?' = protocol? := h
  rw [within]
  split <;> rfl

theorem Mock.name_of_ofProtocol {style : Style} {known : Catalogue} {protocol : Protocol}
    {mock : Mock} (h : Mock.ofProtocol style known protocol = .ok mock) :
    mock.name = style.className protocol.name := by
  simp only [Mock.ofProtocol] at h
  split at h
  · cases h
  · rw [checkMembers] at h
    split at h
    · cases h
    · obtain rfl := Except.ok.inj h
      rfl

namespace Outcome

/-- What becomes of a located protocol, where `known` holds all protocols that could be read. -/
inductive Answers (style : Style) (known : Catalogue) (source : String) (excerpt : Excerpt) :
    Outcome → Prop
  | made {protocol : Protocol} {mock : Mock} : excerpt.read.result = .ok protocol →
      Mock.ofProtocol style known protocol = .ok mock →
      Answers style known source excerpt (.made source excerpt.name (style.className excerpt.name)
        (style.fileName excerpt.name) (mock.print style))
  | unread {fault : Fault} : excerpt.read.result = .error fault →
      fault.OfReading (some excerpt.name) →
      Answers style known source excerpt
        (.refused source excerpt.name (style.className excerpt.name) fault)
  | unnamed {protocol : Protocol} {fault : Fault} : excerpt.read.result = .ok protocol →
      Mock.ofProtocol style known protocol = .error fault → fault.kind = .naming →
      fault.place.protocol? = some excerpt.name →
      Answers style known source excerpt
        (.refused source excerpt.name (style.className excerpt.name) fault)

theorem answers_ofReading {style : Style} {known : Catalogue} {source : String} {excerpt : Excerpt}
    (hname : ∀ protocol, excerpt.read.result = .ok protocol → protocol.name = excerpt.name) :
    Answers style known source excerpt
      (ofReading style known source excerpt excerpt.read.result) := by
  rcases hread : excerpt.read.result with fault | protocol
  · have hfault := Excerpt.fault_of_read hread
    rw [ofReading, Fault.within_eq_self hfault.protocol?_eq]
    exact .unread hread hfault
  · rw [ofReading, hname protocol hread]
    rcases hmock : Mock.ofProtocol style known protocol with fault | mock
    · obtain ⟨hkind, hplace⟩ := Mock.fault_of_ofProtocol hmock
      rw [hname protocol hread] at hplace
      simp only [Fault.within_eq_self hplace]
      exact .unnamed hread hmock hkind hplace
    · simp only [Mock.name_of_ofProtocol hmock, hname protocol hread]
      exact .made hread hmock

/-- Every protocol that is located in a text has one outcome of its own, in their order. A text in
which none can be located has a single outcome that names no protocol. -/
theorem ofSource_answers (style : Style) (known : Catalogue) (source : Source) :
    match Excerpt.ofText source.content with
    | .ok excerpts => List.Forall₂ (Answers style (addReadable known excerpts) source.name)
        excerpts (ofSource style known source)
    | .error fault => ofSource style known source = [unreadable source.name fault] ∧
        fault.kind = .parsing ∧ fault.place = {} ∧ fault.line?.isSome = true := by
  rw [ofSource]
  rcases htext : Excerpt.ofText source.content with fault | excerpts
  · have hscan := Except.map_eq_error_iff.mp htext
    exact ⟨rfl, fault_of_scanFrom hscan⟩
  · simp only [ofExcerpts, List.forall₂_map_right_iff]
    rw [List.forall₂_same]
    exact fun excerpt hmem ↦ answers_ofReading fun protocol ↦ Excerpt.name_eq_of_read htext hmem

end Outcome

end TestDouble
