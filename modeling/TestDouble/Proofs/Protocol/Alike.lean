import TestDouble.Proofs.SwiftType.Alike
import TestDouble.Protocol.Read

/-!
# Protocols of alike tokens

Tokens that differ in their lines only give protocols that differ in their lines only, and are
refused for the same cause. Methods, properties and protocols remember the line they were declared
on; everything else about them has no lines.
-/

namespace TestDouble

open Reader

variable {lines : Nat → Nat → Prop}

/-! ## Without lines -/

def Method.unlined (method : Method) : Method :=
  { method with line? := none }

def Property.unlined (property : Property) : Property :=
  { property with line? := none }

/-- The protocol without the lines of its declarations. -/
def Protocol.unlined (protocol : Protocol) : Protocol :=
  { protocol with
    methods := protocol.methods.map Method.unlined
    properties := protocol.properties.map Property.unlined
    line? := none }

variable (lines) in
/-- Methods that differ in their lines only. -/
structure Method.Alike (method method' : Method) : Prop where
  unlined_eq : method.unlined = method'.unlined
  line : LineAlike lines method.line? method'.line?

variable (lines) in
/-- Properties that differ in their lines only. -/
structure Property.Alike (property property' : Property) : Prop where
  unlined_eq : property.unlined = property'.unlined
  line : LineAlike lines property.line? property'.line?

variable (lines) in
/-- Members that differ in their lines only. -/
inductive Member.Alike : Member → Member → Prop
  | method {m m' : Method} : m.Alike lines m' → Alike (.method m) (.method m')
  | property {p p' : Property} : p.Alike lines p' → Alike (.property p) (.property p')
  | associatedType (type : AssociatedType) : Alike (.associatedType type) (.associatedType type)
  | nothing : Alike .nothing .nothing

variable (lines) in
/-- Protocols that differ in their lines only. -/
structure Protocol.Alike (protocol protocol' : Protocol) : Prop where
  unlined_eq : protocol.unlined = protocol'.unlined
  line : LineAlike lines protocol.line? protocol'.line?
  methods : List.Forall₂ (Method.Alike lines) protocol.methods protocol'.methods
  properties : List.Forall₂ (Property.Alike lines) protocol.properties protocol'.properties

/-! ## Words in front of declarations -/

theorem endsMember_eq_of_alike {tokens tokens' : List Token}
    (h : List.Forall₂ (Token.Alike lines) tokens tokens') :
    endsMember tokens = endsMember tokens' := by
  cases h with
  | nil => rfl
  | cons hhead => cases hhead; rfl

namespace Lead

theorem turn_alike : Alike lines (Turn.Alike Eq) turn turn := by
  refine .bind .ahead fun tokens tokens' htokens ↦ ?_
  cases htokens with
  | nil => exact .pure .stop
  | cons hhead hrest =>
    cases hhead
    have hset : stands ["set"] _ = stands ["set"] _ := stands_eq_of_alike (tail_alike hrest)
    have hround : stands ["("] _ = stands ["("] _ := stands_eq_of_alike hrest
    have hprotocol : stands ["protocol"] _ = stands ["protocol"] _ := stands_eq_of_alike hrest
    simp only [hset, hround, hprotocol]
    refine .ite Iff.rfl (.bind (readAttribute_alike _) ?_) (.ite Iff.rfl
      (.bind .skip fun _ _ _ ↦ .optionally Iff.rfl (.group _) (.pure (.more rfl)))
      (.ite Iff.rfl (.ite ?_ (.pure .stop) (.bind .skip fun _ _ _ ↦ .pure (.more rfl)))
        (.pure .stop)))
    · rintro text _ rfl
      exact .pure (.more rfl)
    · cases hrest with
      | nil => rfl
      | cons hhead => cases hhead; rfl

theorem read_alike : Alike lines Eq read read := by
  have h : Alike lines (List.Forall₂ Eq) read read := .repeated turn_alike
  rwa [List.forall₂_eq_eq_eq] at h

end Lead

/-! ## Parameters -/

namespace Parameter

theorem filter_isName_alike {token? token?' : Option Token}
    (h : Option.Rel (Token.Alike lines) token? token?') :
    Option.Rel (Token.Alike lines) (token?.filter Token.isName) (token?'.filter Token.isName) := by
  cases h with
  | none => exact .none
  | @some token token' htoken =>
    have hname : token.isName = token'.isName := by cases htoken; rfl
    rw [Option.filter_some, Option.filter_some, hname]
    split_ifs
    · exact .some htoken
    · exact .none

theorem read_alike (position : Nat) : Alike lines Eq (read position) (read position) := by
  refine .bind (.expectName _) fun first first' hfirst ↦
    .bind .ahead fun tokens tokens' htokens ↦ ?_
  have hsecond := filter_isName_alike (head?_alike htokens)
  have hnames : ∀ second? second?' : Option Token, Option.Rel (Token.Alike lines) second? second?' →
      (second?.getD first).text = (second?'.getD first').text ∧
      (second?.map fun _ ↦ first.text) = (second?'.map fun _ ↦ first'.text) ∧
      second?.isSome = second?'.isSome := by
    cases hfirst
    rintro second? second?' (h | _)
    · cases h
      exact ⟨rfl, rfl, rfl⟩
    · exact ⟨rfl, rfl, rfl⟩
  obtain ⟨hwritten, hlabel, hsome⟩ := hnames _ _ hsecond
  simp only [hwritten, hlabel, hsome]
  refine .optionally Iff.rfl .skip (.bind (.expect _ _) fun _ _ _ ↦ .bind SwiftType.read_alike ?_)
  rintro type _ rfl
  refine .bind (.accept _) ?_
  rintro isVariadic _ rfl
  refine .bind (.accept _) ?_
  rintro seen _ rfl
  exact .optionally Iff.rfl (.collectUntil stands_eq_of_alike) (.pure rfl)

theorem readClause_alike : Alike lines Eq readClause readClause := by
  refine .bind (.expect _ _) fun opener opener' hopener ↦ .bind (V := List.Forall₂ Eq)
    (.repeatFrom (fun number ↦ .bind .ahead fun tokens tokens' htokens ↦ ?_) 0)
    fun parameters parameters' h ↦ .bind .ahead fun tokens tokens' htokens ↦ ?_
  · cases hopener with
    | intro _ _ _ hline =>
      beta_reduce
      rw [stands_eq_of_alike htokens, isEmpty_eq_of_alike htokens]
      refine .ite Iff.rfl (.pure .stop) (.optionally Iff.rfl (.failAt (V := Eq) _ hline)
        (.bind (read_alike _) ?_))
      rintro parameter _ rfl
      refine .bind (.accept _) ?_
      rintro seen _ rfl
      exact .ite Iff.rfl (.pure (.more rfl)) (.pure (.last rfl))
  · obtain rfl := forall₂_eq_iff.mp h
    rw [stands_eq_of_alike htokens, map_text_head?_eq_of_alike htokens]
    exact .guarded Iff.rfl (.fail _) (.bind .skip fun _ _ _ ↦ .pure rfl)

end Parameter

/-! ## Members -/

namespace Method

theorem effect_alike : Reader.Alike lines (Turn.Alike Eq) effect effect := by
  refine .bind .ahead fun tokens tokens' htokens ↦ ?_
  cases htokens with
  | nil => exact .pure .stop
  | cons hhead =>
    cases hhead
    refine .ite Iff.rfl (.bind .skip fun _ _ _ ↦ .bind (adjoinedGroup_alike _) ?_) (.pure .stop)
    rintro text _ rfl
    exact .pure (.more rfl)

theorem Draft.check_of_clash (draft : Draft) {cause : Cause}
    (h : Parameter.clash? draft.parameters = some cause) : draft.check = .error cause := by
  rw [check]
  split
  · next h' => rw [Option.some.inj (h'.symm.trans h)]
  · next h' => simp [h] at h'

theorem Draft.check_of_distinct (draft : Draft) (h : Parameter.clash? draft.parameters = none) :
    ∃ method, draft.check = .ok method ∧
      method.toDraft = { draft with result? := draft.result?.filter fun type ↦ !type.isVoid } := by
  rw [check]
  split
  · next h' => simp [h] at h'
  · exact ⟨_, rfl, rfl⟩

theorem Draft.toDraft_eq_of_check {draft : Draft} {method : Method} (h : draft.check = .ok method) :
    method.toDraft = { draft with result? := draft.result?.filter fun type ↦ !type.isVoid } := by
  rw [check] at h
  split at h
  · cases h
  · obtain rfl := Except.ok.inj h
    rfl

@[simp] theorem toDraft_unlined (method : Method) :
    method.unlined.toDraft = { method.toDraft with line? := none } := rfl

private theorem toDraft_injective {method method' : Method} (h : method.toDraft = method'.toDraft) :
    method = method' := by
  cases method
  cases method'
  cases h
  rfl

/-- Whether a draft is refused does not depend on its line. -/
theorem check_alike (draft : Draft) {line? line?' : Option Int}
    (hline : LineAlike lines line? line?') :
    (∃ cause, Draft.check { draft with line? } = .error cause ∧
      Draft.check { draft with line? := line?' } = .error cause) ∨
    ∃ method method', Draft.check { draft with line? } = .ok method ∧
      Draft.check { draft with line? := line?' } = .ok method' ∧ method.Alike lines method' := by
  rcases h : Parameter.clash? draft.parameters with _ | cause
  · obtain ⟨method, hcheck, hmethod⟩ := Draft.check_of_distinct { draft with line? } h
    obtain ⟨method', hcheck', hmethod'⟩ :=
      Draft.check_of_distinct { draft with line? := line?' } h
    refine .inr ⟨method, method', hcheck, hcheck', toDraft_injective ?_, ?_⟩
    · simp [hmethod, hmethod']
    · rwa [hmethod, hmethod']
  · exact .inl ⟨cause, Draft.check_of_clash _ h, Draft.check_of_clash _ h⟩

theorem readAfterName_alike (name : String) {line line' : Nat} (hline : lines line line')
    (isStatic : Bool) :
    Reader.Alike lines (Method.Alike lines) (readAfterName name line isStatic)
      (readAfterName name line' isStatic) := by
  refine .bind (adjoinedGroup_alike _) ?_
  rintro genericClause _ rfl
  refine .bind (.sees _) ?_
  rintro seen _ rfl
  refine .guarded Iff.rfl (.fail _) (.bind Parameter.readClause_alike ?_)
  rintro parameters _ rfl
  refine .bind (.repeated effect_alike) fun effects effects' h ↦ ?_
  obtain rfl := forall₂_eq_iff.mp h
  refine .bind (.accept _) ?_
  rintro seen _ rfl
  refine .either (V := Eq) Iff.rfl (.map SwiftType.read_alike fun _ _ h ↦ congrArg some h)
    (.pure rfl) ?_
  rintro result? _ rfl
  refine .bind (.accept _) ?_
  rintro seen _ rfl
  refine .either (V := Eq) Iff.rfl (.map (.collectUntil endsMember_eq_of_alike)
    fun _ _ h ↦ join_eq_of_alike h) (.pure rfl) ?_
  rintro whereClause _ rfl
  refine .bind (.sees _) ?_
  rintro seen _ rfl
  refine .optionally Iff.rfl (.fail (V := Eq) _) (.bind .ahead fun tokens tokens' htokens ↦ ?_)
  rw [endsMember_eq_of_alike htokens, map_text_head?_eq_of_alike htokens]
  refine .guarded Iff.rfl (.fail _) ?_
  obtain ⟨cause, h, h'⟩ | ⟨method, method', h, h', hmethod⟩ :=
    check_alike ⟨name, parameters, result?, genericClause, whereClause, effects, isStatic, none⟩
      (.known hline)
  · simp only [h, h']
    exact .refuse cause
  · simp only [h, h']
    exact .bind (.tell _ _) fun _ _ _ ↦ .pure hmethod

theorem read_alike (isStatic : Bool) :
    Reader.Alike lines (Method.Alike lines) (read isStatic) (read isStatic) := by
  refine .bind (.expect _ _) fun keyword keyword' hkeyword ↦
    .bind .ahead fun tokens tokens' htokens ↦ ?_
  cases hkeyword with
  | intro _ _ _ hline =>
    cases htokens with
    | nil => exact .fail _
    | cons hhead =>
      cases hhead
      exact .guarded Iff.rfl (.fail _) (.bind .skip fun _ _ _ ↦
        .inMember _ (readAfterName_alike _ hline isStatic))

end Method

namespace Property

theorem readAfterName_alike (name : String) {line line' : Nat} (hline : lines line line')
    (isStatic : Bool) :
    Reader.Alike lines (Property.Alike lines) (readAfterName name line isStatic)
      (readAfterName name line' isStatic) := by
  refine .bind (.expect _ _) fun _ _ _ ↦ .bind SwiftType.read_alike ?_
  rintro type _ rfl
  refine .bind (.sees _) ?_
  rintro seen _ rfl
  refine .guarded Iff.rfl (.fail _) (.bind (.group _) fun inner inner' hinner ↦ ?_)
  rw [map_text_eq_of_alike hinner]
  exact .guarded Iff.rfl (.fail _) (.pure ⟨rfl, .known hline⟩)

theorem read_alike (isStatic : Bool) :
    Reader.Alike lines (Property.Alike lines) (read isStatic) (read isStatic) := by
  refine .bind (.expect _ _) fun keyword keyword' hkeyword ↦
    .bind (.expectName _) fun name name' hname ↦ ?_
  cases hkeyword with
  | intro _ _ _ hline =>
    cases hname
    exact .inMember _ (readAfterName_alike _ hline isStatic)

end Property

theorem AssociatedType.read_alike : Reader.Alike lines Eq read read := by
  refine .bind (.expect _ _) fun _ _ _ ↦ .bind (.expectName _) fun name name' hname ↦ ?_
  cases hname
  refine .bind (.accept _) ?_
  rintro seen _ rfl
  refine .either (V := List.Forall₂ Eq) Iff.rfl (.separated SwiftType.read_alike) (.pure .nil)
    fun constraints constraints' h ↦ ?_
  obtain rfl := forall₂_eq_iff.mp h
  refine .bind (.accept _) ?_
  rintro seen _ rfl
  refine .optionally Iff.rfl SwiftType.read_alike (.bind (.accept _) ?_)
  rintro seen _ rfl
  exact .optionally Iff.rfl (.collectUntil endsMember_eq_of_alike) (.pure rfl)

theorem Member.read_alike (protocol : String) :
    Reader.Alike lines (Member.Alike lines) (read protocol) (read protocol) := by
  refine .bind Lead.read_alike ?_
  rintro leads _ rfl
  refine .bind .ahead fun tokens tokens' htokens ↦ ?_
  cases htokens with
  | nil => exact .fail _
  | cons hhead =>
    cases hhead
    refine .ite Iff.rfl (.bind (Method.read_alike _) fun _ _ h ↦ .pure (.method h))
      (.ite Iff.rfl (.bind (Property.read_alike _) fun _ _ h ↦ .pure (.property h))
      (.ite Iff.rfl (.bind AssociatedType.read_alike ?_) (.ite Iff.rfl (.bind (.tell _ _)
        fun _ _ _ ↦ .bind .skip fun _ _ _ ↦ .bind (.collectUntil endsMember_eq_of_alike)
          fun _ _ _ ↦ .pure .nothing) (.fail _))))
    rintro type _ rfl
    exact .pure (.associatedType type)

/-! ## Protocols -/

namespace Protocol

theorem readEntry_alike : Reader.Alike lines Eq readEntry readEntry := by
  refine .bind (.accept _) ?_
  rintro seen _ rfl
  refine .ite Iff.rfl (.pure rfl) (.bind SwiftType.read_alike ?_)
  rintro type _ rfl
  exact .pure rfl

theorem readInheritance_alike : Reader.Alike lines Eq readInheritance readInheritance := by
  refine .bind (.accept _) ?_
  rintro seen _ rfl
  refine .ite Iff.rfl (.bind (.separated readEntry_alike) fun names names' h ↦ ?_) (.pure rfl)
  obtain rfl := forall₂_eq_iff.mp h
  exact .pure rfl

theorem readBody_alike (name : String) {line line' : Nat} (hline : lines line line') :
    Reader.Alike lines (List.Forall₂ (Member.Alike lines)) (readBody name line)
      (readBody name line') := by
  refine .repeated (.bind .ahead fun tokens tokens' htokens ↦ ?_)
  rw [stands_eq_of_alike htokens, isEmpty_eq_of_alike htokens]
  refine .ite Iff.rfl (.pure .stop) (.optionally Iff.rfl (.failAt (V := Eq) _ hline)
    (.bind (.accept _) ?_))
  rintro seen _ rfl
  exact .ite Iff.rfl (.pure (.more .nothing))
    (.bind (Member.read_alike name) fun _ _ h ↦ .pure (.more h))

private theorem map_eq_of_forall₂ {α β : Type} {V : α → α → Prop} {f : α → β}
    (hf : ∀ a a', V a a' → f a = f a') {items items' : List α} (h : List.Forall₂ V items items') :
    items.map f = items'.map f := by
  induction h with
  | nil => rfl
  | cons hitem _ ih => rw [List.map_cons, List.map_cons, hf _ _ hitem, ih]

theorem filterMap_method?_alike {members members' : List Member}
    (h : List.Forall₂ (Member.Alike lines) members members') :
    List.Forall₂ (Method.Alike lines) (members.filterMap Member.method?)
      (members'.filterMap Member.method?) := by
  refine List.rel_filterMap (fun member member' hmember ↦ ?_) h
  cases hmember with
  | method hmethod => exact .some hmethod
  | property | associatedType | nothing => exact .none

theorem filterMap_property?_alike {members members' : List Member}
    (h : List.Forall₂ (Member.Alike lines) members members') :
    List.Forall₂ (Property.Alike lines) (members.filterMap Member.property?)
      (members'.filterMap Member.property?) := by
  refine List.rel_filterMap (fun member member' hmember ↦ ?_) h
  cases hmember with
  | property hproperty => exact .some hproperty
  | method | associatedType | nothing => exact .none

theorem filterMap_associatedType?_eq_of_alike {members members' : List Member}
    (h : List.Forall₂ (Member.Alike lines) members members') :
    members.filterMap Member.associatedType? = members'.filterMap Member.associatedType? := by
  refine forall₂_eq_iff.mp (List.rel_filterMap (fun member member' hmember ↦ ?_) h)
  cases hmember with
  | associatedType type => exact .some rfl
  | method | property | nothing => exact .none

/-- A declaration is read up to its keyword, and alike from there on. -/
theorem exists_readDeclaration_eq (lines : Nat → Nat → Prop) :
    ∃ next : Nat → List Lead → Reader Protocol,
      (∀ line, readDeclaration line = do
        let leads ← Lead.read
        let _ ← expect "protocol" "to start protocol declaration"
        next line leads) ∧
      ∀ {line line'}, lines line line' → ∀ leads,
        Reader.Alike lines (Protocol.Alike lines) (next line leads) (next line' leads) := by
  refine ⟨_, fun line ↦ rfl, fun hline leads ↦ ?_⟩
  refine .bind (.expectName _) fun name name' hname ↦ ?_
  cases hname
  refine .bind (adjoinedGroup_alike _) fun _ _ _ ↦ .bind readInheritance_alike ?_
  rintro inherited _ rfl
  refine .bind (.accept _) ?_
  rintro seen _ rfl
  refine .optionally Iff.rfl (.collectUntil stands_eq_of_alike) (.bind (.expect _ _) fun _ _ _ ↦
    .bind (readBody_alike _ hline) fun members members' hmembers ↦ .bind (.expect _ _) fun _ _ _ ↦
    .bind (.tell _ _) fun _ _ _ ↦ .pure ?_)
  have hmethods := filterMap_method?_alike hmembers
  have hproperties := filterMap_property?_alike hmembers
  refine ⟨?_, .known hline, hmethods, hproperties⟩
  simp only [unlined, filterMap_associatedType?_eq_of_alike hmembers,
    map_eq_of_forall₂ (fun _ _ h ↦ h.unlined_eq) hmethods,
    map_eq_of_forall₂ (fun _ _ h ↦ h.unlined_eq) hproperties]

end Protocol

/-! ## The first word

A declaration begins with its first word, whether or not that is on a fresh line. -/

section FirstWord

variable {scope scope' : Scope} {token token' : Token} {tokens tokens' : List Token}

variable (lines) in
/-- Tokens that differ in their lines and line breaks only. -/
inductive Token.AlikeFirst : Token → Token → Prop
  | intro (kind : Kind) (text : String) (freshLine freshLine' : Bool) {line line' : Nat} :
      lines line line' →
      AlikeFirst ⟨kind, text, line, freshLine⟩ ⟨kind, text, line', freshLine'⟩

theorem readAttribute_alikeFirst (beforeType : Bool) (hscope : scope.Alike lines scope')
    (hfirst : token.AlikeFirst lines token')
    (htokens : List.Forall₂ (Token.Alike lines) tokens tokens') :
    (readAttribute beforeType scope (token :: tokens)).Alike lines Eq
      (readAttribute beforeType scope' (token' :: tokens')) := by
  have hnext : (next? scope (token :: tokens)).Alike lines
      (fun t t' ↦ t.map (·.text) = t'.map (·.text)) (next? scope' (token' :: tokens')) := by
    cases hfirst
    exact ⟨.ok rfl, htokens⟩
  refine hnext.bind hscope fun token? token?' htext ↦ ?_
  simp only [htext]
  refine .ite Iff.rfl (.pure rfl) (.bind (adjoinedGroup_alike _) ?_)
  rintro text _ rfl
  exact .pure rfl

theorem expect_alikeFirst {α α' : Type} {V : α → α' → Prop} {next : Token → Reader α}
    {next' : Token → Reader α'} (text context : String) (hscope : scope.Alike lines scope')
    (hfirst : token.AlikeFirst lines token')
    (htokens : List.Forall₂ (Token.Alike lines) tokens tokens')
    (hnext : ∀ t t', Reader.Alike lines V (next t) (next' t')) :
    ResultAlike lines V ((expect text context >>= next) scope (token :: tokens)).result
      ((expect text context >>= next') scope' (token' :: tokens')).result := by
  cases hfirst with
  | intro kind word freshLine freshLine' hline =>
    by_cases his : ∀ line fresh, Token.is ⟨kind, word, line, fresh⟩ text = true
    · have hread (scope : Scope) (line fresh rest) : Reads (expect text context) scope
          (⟨kind, word, line, fresh⟩ :: rest) ⟨kind, word, line, fresh⟩ rest :=
        reads_expect_iff.mpr ⟨rfl, his _ _⟩
      rw [(bind_of_ok (hread ..).result_eq).1, (bind_of_ok (hread ..).result_eq).1,
        (hread ..).rest_eq, (hread ..).rest_eq]
      exact (hnext _ _ hscope htokens).result
    · have hresult (scope : Scope) (line fresh rest) :
          (expect text context scope (⟨kind, word, line, fresh⟩ :: rest)).result =
            .error ⟨.expected text context (some word), scope.place, some line⟩ := by
        rw [expect, if_neg fun h ↦ his fun _ _ ↦ h]
        rfl
      rw [(bind_of_error (hresult ..)).1, (bind_of_error (hresult ..)).1, hscope.place_eq]
      exact .error (.intro _ _ (.known hline))

/-- The first word is taken alike, or left alone. -/
theorem Lead.turn_alikeFirst (hscope : scope.Alike lines scope')
    (hfirst : token.AlikeFirst lines token')
    (htokens : List.Forall₂ (Token.Alike lines) tokens tokens') :
    (Lead.turn scope (token :: tokens)).Alike lines (Turn.Alike Eq)
        (Lead.turn scope' (token' :: tokens')) ∨
      Reads Lead.turn scope (token :: tokens) .stop (token :: tokens) ∧
      Reads Lead.turn scope' (token' :: tokens') .stop (token' :: tokens') := by
  have hset : stands ["set"] _ = stands ["set"] _ := stands_eq_of_alike (tail_alike htokens)
  have hround : stands ["("] _ = stands ["("] _ := stands_eq_of_alike htokens
  have hprotocol : stands ["protocol"] _ = stands ["protocol"] _ := stands_eq_of_alike htokens
  have hname :
      tokens.head?.any (·.kind = .identifier) = tokens'.head?.any (·.kind = .identifier) := by
    cases htokens with
    | nil => rfl
    | cons hhead => cases hhead; rfl
  have hlead := readAttribute_alikeFirst false hscope hfirst htokens
  cases hfirst with
  | intro kind text freshLine freshLine' hline =>
    by_cases hattribute : kind = .attribute
    · refine .inl (.of_ahead ?_)
      simp only [hattribute, if_true] at hlead ⊢
      refine hlead.bind hscope ?_
      rintro text _ rfl
      exact .pure (.more rfl)
    by_cases haccess : text ∈ accessLevels
    · refine .inl (.of_ahead ?_)
      simp only [if_neg hattribute, if_pos haccess, hset, hround]
      exact .of_skip hscope htokens (.optionally Iff.rfl (.group _) (.pure (.more rfl)))
    by_cases hword : text ∈ idleModifiers ∨ text ∈ staticModifiers ∧ ¬ stands ["protocol"] tokens'
    -- The word `class` is left alone in front of a name, on whatever line it stands.
    · by_cases hclass : ∀ line fresh, (Token.is ⟨kind, text, line, fresh⟩ "class" &&
          tokens'.head?.any (·.kind = .identifier)) = true
      · refine .inr ⟨?_, ?_⟩ <;> rw [Lead.turn, reads_ahead_bind_iff]
        · simp only [if_neg hattribute, if_neg haccess, hprotocol, if_pos hword, hname, hclass,
            if_true, reads_pure_iff, and_self]
        · simp only [if_neg hattribute, if_neg haccess, if_pos hword, hclass, if_true,
            reads_pure_iff, and_self]
      · have hnot : ∀ line fresh, ¬ (Token.is ⟨kind, text, line, fresh⟩ "class" &&
            tokens'.head?.any (·.kind = .identifier)) = true := fun _ _ h ↦ hclass fun _ _ ↦ h
        refine .inl (.of_ahead ?_)
        simp only [if_neg hattribute, if_neg haccess, hprotocol, if_pos hword, hname, hnot]
        exact .of_skip hscope htokens (.pure (.more rfl))
    · refine .inr ⟨?_, ?_⟩ <;> rw [Lead.turn, reads_ahead_bind_iff]
      · simp only [if_neg hattribute, if_neg haccess, hprotocol, if_neg hword, reads_pure_iff,
          and_self]
      · simp only [if_neg hattribute, if_neg haccess, if_neg hword, reads_pure_iff, and_self]

/-- A declaration is read alike whether or not its first word is on a fresh line. -/
theorem Protocol.readDeclaration_alikeFirst {line line' : Nat} (hscope : scope.Alike lines scope')
    (hfirst : token.AlikeFirst lines token') (hline : lines line line')
    (htokens : List.Forall₂ (Token.Alike lines) tokens tokens') :
    ResultAlike lines (Protocol.Alike lines) (readDeclaration line scope (token :: tokens)).result
      (readDeclaration line' scope' (token' :: tokens')).result := by
  obtain ⟨next, heq, hnext⟩ := exists_readDeclaration_eq lines
  rw [heq, heq]
  rcases Lead.turn_alikeFirst hscope hfirst htokens with hturn | ⟨hstop, hstop'⟩
  · have hread : (Lead.read scope (token :: tokens)).Alike lines (List.Forall₂ Eq)
        (Lead.read scope' (token' :: tokens')) :=
      Reading.Alike.repeatFrom hturn (by simp [htokens.length_eq])
        fun hmid _ ↦ Reader.Alike.repeatFrom (fun _ ↦ Lead.turn_alike) 1 hscope hmid
    refine (hread.bind hscope fun leads leads' h ↦ ?_).result
    obtain rfl := forall₂_eq_iff.mp h
    exact .bind (.expect _ _) fun _ _ _ ↦ hnext hline leads
  · have hleads : Reads Lead.read scope (token :: tokens) [] (token :: tokens) :=
      hstop.repeatFrom_stop
    have hleads' : Reads Lead.read scope' (token' :: tokens') [] (token' :: tokens') :=
      hstop'.repeatFrom_stop
    rw [(bind_of_ok hleads.result_eq).1, (bind_of_ok hleads'.result_eq).1, hleads.rest_eq,
      hleads'.rest_eq]
    exact expect_alikeFirst _ _ hscope hfirst htokens fun _ _ ↦ hnext hline []

end FirstWord

end TestDouble
