import TestDouble.Proofs.Protocol.Alike
import TestDouble.Proofs.Protocol.Cut
import TestDouble.Proofs.Reader.Keeps
import TestDouble.Proofs.Token.Identifier

/-!
# The names in a protocol

Names are tokens of the source as they are written. A protocol has an identifier for a name, which
may stand in backticks, and methods and their parameters an identifier or a reserved word. Only a
parameter without a name gets one that is made up.
-/

namespace TestDouble

open Token

/-- The names in a method are spelled as names. -/
structure Method.Named (method : Method) : Prop where
  name : Nameable method.name
  parameters : ∀ parameter ∈ method.parameters, Nameable parameter.name

private theorem Method.Draft.named_of_check {draft : Draft} {method : Method}
    (h : draft.check = .ok method) (hname : Nameable draft.name)
    (hparameters : ∀ parameter ∈ draft.parameters, Nameable parameter.name) : method.Named := by
  constructor <;> rw [toDraft_eq_of_check h]
  · exact hname
  · exact hparameters

namespace Reader

/-! ## Tokens come off the front -/

/-- What is left when something was read is the end of what there was. -/
def LeavesSuffix ⦃α : Type⦄ (read : Reader α) : Prop :=
  ∀ ⦃scope : Scope⦄ ⦃tokens rest : List Token⦄ ⦃a : α⦄,
    Reads read scope tokens a rest → rest <:+ tokens

private theorem leavesSuffix_repeatFrom {α : Type} {turn : Nat → Reader (Turn α)}
    (h : ∀ number, LeavesSuffix (turn number)) (number : Nat) :
    LeavesSuffix (repeatFrom turn number) := by
  intro scope tokens rest items hread
  have hkeeps (number : Nat) (scope : Scope) (tokens : List Token) :
      Keeps [] (Turn.All fun _ ↦ True) (turn number) scope tokens := by
    intro a mid hturn
    obtain ⟨consumed, hconsumed⟩ := h number hturn
    exact ⟨consumed, hconsumed.symm, fun _ ↦ by cases a <;> trivial⟩
  obtain ⟨consumed, hconsumed, -⟩ := Keeps.repeatFrom hkeeps hread
  exact ⟨consumed, hconsumed.symm⟩

theorem leavesSuffix_compositional : Compositional LeavesSuffix where
  pure _ _ _ _ _ hread := by
    obtain ⟨-, rfl⟩ := reads_pure_iff.mp hread
    exact List.suffix_rfl
  bind h hnext _ _ _ _ hread := by
    obtain ⟨a, mid, hfirst, hsecond⟩ := reads_bind_iff.mp hread
    exact (hnext a hsecond).trans (h hfirst)
  onTokens h _ tokens _ _ hread := h tokens ⟨hread.result_eq, hread.rest_eq⟩
  inMember _ _ h _ _ _ _ hread := h ⟨hread.result_eq, hread.rest_eq⟩
  tell _ _ _ _ _ hread := (reads_tell_iff.mp hread) ▸ List.suffix_rfl
  fail _ _ _ _ _ _ hread := (not_reads_fail hread).elim
  refuse _ _ _ _ _ hread := (not_reads_refuse hread).elim
  next? _ _ _ _ hread := by
    obtain ⟨-, rfl⟩ := reads_next?_iff.mp hread
    exact List.tail_suffix _
  group bracket _ tokens rest inner hread := by
    obtain ⟨closer, htail, -⟩ := Bracket.exists_closer_of_closeFrom (reads_group_iff.mp hread)
    exact (List.IsSuffix.trans ⟨inner ++ [closer], by rw [htail]; simp⟩ (List.tail_suffix tokens))
  repeatFrom h _ := leavesSuffix_repeatFrom h

theorem leavesSuffix_receding : Receding LeavesSuffix where
  toCompositional := leavesSuffix_compositional
  recedes h _ _ _ _ hread := (h hread).length_le

/-! ## Names of parameters -/

namespace Keeps

variable {α : Type} {whole : List Token} {scope : Scope} {tokens : List Token}

theorem of_leavesSuffix {read : Reader α} (h : LeavesSuffix read) :
    Keeps whole (fun _ ↦ True) read scope tokens := by
  intro a rest hread
  obtain ⟨consumed, hconsumed⟩ := h hread
  exact ⟨consumed, hconsumed.symm, fun _ ↦ trivial⟩

theorem inMember {good : α → Prop} {read : Reader α} {member : String}
    (h : Keeps whole good read { scope with place.member? := some member } tokens) :
    Keeps whole good (Reader.inMember member read) scope tokens :=
  fun _ _ hread ↦ h ⟨hread.result_eq, hread.rest_eq⟩

/-- A part that is read under a condition, before what is read in any case. -/
theorem optionally {β : Type} {good : β → Prop} {good' : α → Prop} {p : Prop} [Decidable p]
    {read : Reader α} {next : Reader β} (h : p → Keeps whole good' read scope tokens)
    (hnext : ∀ mid, Keeps whole (fun b ↦ (p → ∃ a, good' a) → good b) next scope mid) :
    Keeps whole good (if p then read >>= fun _ ↦ next else next) scope tokens := by
  refine .ite (fun hp ↦ .bind (h hp) fun a mid ↦ ?_) fun hp ↦ ?_
  · exact (hnext mid).mono fun b hgood ha ↦ hgood fun _ ↦ ⟨a, ha⟩
  · exact (hnext tokens).mono fun b hgood ↦ hgood fun h ↦ absurd h hp

/-- A part that is not looked at. -/
theorem past {β : Type} {good : β → Prop} {read : Reader α} {next : α → Reader β}
    (h : LeavesSuffix read) (hnext : ∀ a mid, Keeps whole good (next a) scope mid) :
    Keeps whole good (read >>= next) scope tokens :=
  .bind (.of_leavesSuffix h) fun a mid ↦ (hnext a mid).mono fun _ hgood _ ↦ hgood

theorem either_past {β : Type} {good : β → Prop} {p : Prop} [Decidable p] {read other : Reader α}
    {next : α → Reader β} (h : LeavesSuffix read) (hother : LeavesSuffix other)
    (hnext : ∀ a mid, Keeps whole good (next a) scope mid) :
    Keeps whole good (if p then read >>= next else other >>= next) scope tokens :=
  .ite (fun _ ↦ .past h hnext) fun _ ↦ .past hother hnext

variable (hspelled : ∀ token ∈ whole, Spelled token.kind token.text.toList)
include hspelled

theorem expectName {context : String} :
    Keeps whole (fun token ↦ Nameable token.text) (expectName context) scope tokens := by
  intro token rest hread
  obtain ⟨rfl, hname⟩ := reads_expectName_iff.mp hread
  exact ⟨[token], rfl, fun hpart ↦
    .of_isName (hspelled token (hpart.subset List.mem_cons_self)) hname⟩

theorem skip_name {second? : Option Token} (hsecond : second? = tokens.head?.filter Token.isName)
    (hsome : second?.isSome = true) :
    Keeps whole (fun _ ↦ ∀ second ∈ second?, Nameable second.text) skip scope tokens := by
  intro _ rest hread
  obtain ⟨second, rfl⟩ := Option.isSome_iff_exists.mp hsome
  obtain ⟨hhead, hname⟩ := Option.filter_eq_some_iff.mp hsecond.symm
  obtain ⟨tokens, rfl⟩ := List.head?_eq_some_iff.mp hhead
  obtain rfl := reads_skip_iff.mp hread
  refine ⟨[second], rfl, ?_⟩
  rintro hpart _ ⟨⟩
  exact .of_isName (hspelled second (hpart.subset List.mem_cons_self)) hname

theorem parameter {position : Nat} :
    Keeps whole (fun parameter ↦ Nameable parameter.name) (Parameter.read position) scope
      tokens := by
  refine .bind (.expectName hspelled) fun first tokens ↦ .ahead_bind
    (.optionally (.skip_name hspelled rfl) fun _ ↦ ?_)
  refine .bind .expect fun _ _ ↦ .bind (.of_leavesSuffix leavesSuffix_receding.swiftType) fun _ _ ↦
    .bind .accept fun _ _ ↦ .bind .accept fun _ _ ↦ .optionally
      (fun _ ↦ .of_leavesSuffix (leavesSuffix_receding.collectUntil _)) fun _ ↦ .pure ?_
  -- A parameter has the last of its names, unless that is `_`: then one is made up.
  intro _ _ _ _ _ hsecond hfirst
  generalize tokens.head?.filter Token.isName = second? at hsecond
  dsimp only
  split
  · rcases second? with _ | second
    · exact hfirst
    · obtain ⟨-, hname⟩ := hsecond rfl
      exact hname second rfl
  · exact nameable_positional position

theorem parameterClause :
    Keeps whole (fun parameters ↦ ∀ parameter ∈ parameters, Nameable parameter.name)
      Parameter.readClause scope tokens := by
  have hturns {turn : Nat → Reader (Turn Parameter)} {tokens : List Token}
      (h : ∀ number scope tokens, Keeps whole (Turn.All fun parameter ↦ Nameable parameter.name)
        (turn number) scope tokens) :
      Keeps whole (fun parameters ↦ ∀ parameter ∈ parameters, Nameable parameter.name)
        (numbered turn) scope tokens := .repeatFrom h
  refine .bind .expect fun opener tokens ↦ .bind (hturns fun number scope tokens ↦ ?_)
    fun parameters mid ↦ .ahead_bind ?_
  · refine .ahead_bind (.ite (fun _ ↦ .pure trivial) fun _ ↦ .ite (fun _ ↦ .fail_bind) fun _ ↦ ?_)
    refine .bind (.parameter hspelled) fun parameter _ ↦ .bind .accept fun _ _ ↦
      .ite (fun _ ↦ .pure ?_) fun _ ↦ .pure ?_
    all_goals exact fun _ hname ↦ hname
  · refine .ite (fun _ ↦ ?_) fun _ ↦ .fail_bind
    refine .bind (.of_leavesSuffix leavesSuffix_receding.skip) fun _ _ ↦ .pure ?_
    exact fun _ hnames _ ↦ hnames

/-! ## Names in members -/

theorem methodAfterName {name : String} {line : Nat} {isStatic : Bool} :
    Keeps whole (fun method ↦ Nameable name → method.Named)
      (Method.readAfterName name line isStatic) scope tokens := by
  have hsuffix := leavesSuffix_receding
  refine .past (hsuffix.adjoinedGroup _) fun _ _ ↦ .sees_bind (.ite (fun _ ↦ ?_) fun _ ↦ .fail_bind)
  refine .bind (.parameterClause hspelled) fun parameters _ ↦
    .past (hsuffix.repeated hsuffix.effect hsuffix.advances_effect) fun _ _ ↦
      .past (hsuffix.accept _) fun _ _ ↦
        .either_past (hsuffix.map hsuffix.swiftType) (hsuffix.pure _) fun _ _ ↦
          .past (hsuffix.accept _) fun _ _ ↦
            .either_past (hsuffix.map (hsuffix.collectUntil _)) (hsuffix.pure _) fun _ _ ↦
              .sees_bind (.ite (fun _ ↦ .fail_bind) fun _ ↦ .ahead_bind ?_)
  refine .ite (fun _ ↦ ?_) fun _ ↦ .fail_bind
  dsimp only
  split
  · exact fun _ _ hread ↦ (not_reads_refuse hread).elim
  · next hcheck =>
    exact .tell_bind (.pure fun hparameters hname ↦
      Method.Draft.named_of_check hcheck hname hparameters)

theorem method {isStatic : Bool} :
    Keeps whole Method.Named (Method.read isStatic) scope tokens := by
  refine .past (leavesSuffix_receding.expect _ _) fun _ tokens ↦ .ahead_bind ?_
  cases tokens with
  | nil => exact .fail
  | cons name tokens =>
    refine .ite (fun hname ↦ .skip_bind (.inMember ?_)) fun _ ↦ .fail_bind
    refine (methodAfterName hspelled).mono fun method hmethod hmem ↦ hmethod ?_
    exact .of_isName (hspelled name hmem) hname

end Keeps

/-! ## From methods to protocols -/

namespace Keeps

variable {whole : List Token} {scope : Scope} {tokens : List Token} {good : Method → Prop}
  (h : ∀ isStatic scope tokens, Keeps whole good (Method.read isStatic) scope tokens)
include h

theorem member {protocol : String} :
    Keeps whole (fun member ↦ ∀ method ∈ member.method?, good method) (Member.read protocol) scope
      tokens := by
  have hsuffix := leavesSuffix_receding
  refine .past hsuffix.leads fun _ tokens ↦ .ahead_bind ?_
  cases tokens with
  | nil => exact .fail
  | cons token tokens =>
    refine .ite (fun _ ↦ ?_) fun _ ↦ .ite (fun _ ↦ ?_) fun _ ↦ .ite (fun _ ↦ ?_) fun _ ↦
      .ite (fun _ ↦ .tell_bind ?_) fun _ ↦ .fail
    · refine .bind (h _ _ _) fun method _ ↦ .pure fun hgood ↦ ?_
      rintro _ ⟨⟩
      exact hgood
    · exact .past (hsuffix.property _).1 fun _ _ ↦ .pure nofun
    · exact .past hsuffix.associatedType.1 fun _ _ ↦ .pure nofun
    · exact .past hsuffix.skip fun _ _ ↦ .past (hsuffix.collectUntil _) fun _ _ ↦ .pure nofun

theorem body {name : String} {line : Nat} :
    Keeps whole (fun members ↦ ∀ member ∈ members, ∀ method ∈ member.method?, good method)
      (Protocol.readBody name line) scope tokens := by
  refine .repeated fun scope tokens ↦ .ahead_bind (.ite (fun _ ↦ .pure trivial) fun _ ↦
    .ite (fun _ ↦ .fail_bind) fun _ ↦ .past (leavesSuffix_receding.accept _) fun _ _ ↦ ?_)
  refine .ite (fun _ ↦ .pure nofun) fun _ ↦ .bind (.member h) fun member _ ↦ .pure ?_
  exact fun hgood ↦ hgood

/-- What holds of every method that is read holds of those of a protocol. -/
theorem declaration {line : Nat} :
    Keeps whole (fun protocol ↦ ∀ method ∈ protocol.methods, good method)
      (Protocol.readDeclaration line) scope tokens := by
  have hsuffix := leavesSuffix_receding
  refine .past hsuffix.leads fun _ _ ↦ .past (hsuffix.expect _ _) fun _ _ ↦
    .past (hsuffix.expectName _) fun name _ ↦ .past (hsuffix.adjoinedGroup _) fun _ _ ↦
      .past hsuffix.inheritance fun _ _ ↦ .past (hsuffix.accept _) fun _ _ ↦ ?_
  refine .optionally (fun _ ↦ .of_leavesSuffix (hsuffix.collectUntil _)) fun _ ↦
    .past (hsuffix.expect _ _) fun _ _ ↦ .bind (.body h) fun members _ ↦
      .past (hsuffix.expect _ _) fun _ _ ↦ .tell_bind (.pure fun hmembers _ method hmethod ↦ ?_)
  obtain ⟨member, hmember, hfound⟩ := List.mem_filterMap.mp hmethod
  exact hmembers member hmember method hfound

end Keeps

end Reader

namespace Protocol

variable {text : String} {protocol : Protocol}

/-- The names in a protocol are spelled as names, its own as an identifier. -/
structure Named (protocol : Protocol) : Prop where
  name : Token.Spelled .identifier protocol.name.toList
  methods : ∀ method ∈ protocol.methods, method.Named

theorem exists_excerpt_of_ofText (h : ofText text = .ok protocol) :
    ∃ excerpts, Excerpt.ofText text = .ok excerpts ∧
      ∃ excerpt ∈ excerpts, excerpt.read.result = .ok protocol := by
  rw [ofText] at h
  rcases hexcerpts : Excerpt.ofText text with fault | _ | ⟨excerpt, _ | ⟨other, excerpts⟩⟩
  all_goals rw [hexcerpts] at h
  · cases h
  · cases h
  · exact ⟨[excerpt], rfl, excerpt, List.mem_cons_self, h⟩
  · cases h

theorem named_of_ofText (h : ofText text = .ok protocol) : protocol.Named := by
  obtain ⟨excerpts, hexcerpts, excerpt, hmem, hread⟩ := exists_excerpt_of_ofText h
  have hprotocol := Excerpt.name_eq_of_read hexcerpts hmem hread
  constructor
  · obtain ⟨tokens, earlier, keyword, later, hscan, hsplit, hcut⟩ :=
      Excerpt.exists_cutFrom_of_ofText hexcerpts hmem
    have hname := hcut.name_eq
    rw [Excerpt.declaredName?, if_pos hcut.is_keyword, Option.map_eq_some_iff] at hname
    obtain ⟨token, htoken, hname⟩ := hname
    obtain ⟨hhead, hkind⟩ := Option.filter_eq_some_iff.mp htoken
    obtain ⟨later, rfl⟩ := List.head?_eq_some_iff.mp hhead
    rw [hprotocol, ← hname, ← of_decide_eq_true hkind]
    exact spelled_of_mem hscan token (by rw [hsplit]; simp)
  · have hspelled := Excerpt.spelled_of_mem_items hexcerpts hmem
    obtain ⟨consumed, heq, hnames⟩ :=
      Reader.Keeps.declaration (fun _ _ _ ↦ .method hspelled) ⟨hread, rfl⟩
    exact hnames (List.IsPrefix.isInfix ⟨_, heq.symm⟩)

end Protocol

end TestDouble
