import Mathlib.Data.List.Forall2
import Mathlib.Data.Option.Basic
import TestDouble.Proofs.Reader.Basic

/-!
# Readings of alike tokens

Line numbers say where a fault lies and nothing else. Tokens are called alike if they differ in
their lines only, and readers that take alike tokens to alike readings are alike themselves. That is
kept by every way of composing readers, so that a reader made of alike parts needs no proof of its
own beyond naming the parts.

How the lines of alike tokens are related is left open: in a text that follows another they are
shifted by a fixed number, and where lines do not matter at all, any two are related.
-/

namespace TestDouble

variable (lines : Nat → Nat → Prop)

/-- Any two lines, where they do not matter. -/
def anyLines (_ _ : Nat) : Prop := True

/-! ## Relations -/

/-- Tokens that differ in their lines only. -/
inductive Token.Alike : Token → Token → Prop
  | intro (kind : Kind) (text : String) (freshLine : Bool) {line line' : Nat} : lines line line' →
      Alike ⟨kind, text, line, freshLine⟩ ⟨kind, text, line', freshLine⟩

/-- Lines that are both unknown, or related. -/
inductive LineAlike : Option Int → Option Int → Prop
  | unknown : LineAlike none none
  | known {line line' : Nat} : lines line line' → LineAlike (some line) (some line')

/-- Faults that differ in their lines only. -/
inductive Fault.Alike : Fault → Fault → Prop
  | intro (cause : Cause) (place : Place) {line? line?' : Option Int} :
      LineAlike lines line? line?' → Alike ⟨cause, place, line?⟩ ⟨cause, place, line?'⟩

/-- Scopes whose ends differ in their lines only. -/
structure Scope.Alike (scope scope' : Scope) : Prop where
  place_eq : scope.place = scope'.place
  line : lines scope.finish.line scope'.finish.line

variable {α α' β β' : Type}

/-- Results that are alike faults, or values that `V` relates. -/
inductive ResultAlike (V : α → α' → Prop) : Except Fault α → Except Fault α' → Prop
  | error {fault fault' : Fault} : fault.Alike lines fault' →
      ResultAlike V (.error fault) (.error fault')
  | ok {a : α} {a' : α'} : V a a' → ResultAlike V (.ok a) (.ok a')

/-- Readings with alike results that leave alike tokens. -/
structure Reading.Alike (V : α → α' → Prop) (reading : Reading α) (reading' : Reading α') :
    Prop where
  result : ResultAlike lines V reading.result reading'.result
  rest : List.Forall₂ (Token.Alike lines) reading.rest reading'.rest

/-- Readers that take alike tokens to alike readings. -/
def Reader.Alike (V : α → α' → Prop) (read : Reader α) (read' : Reader α') : Prop :=
  ∀ ⦃scope scope' : Scope⦄ ⦃tokens tokens' : List Token⦄, scope.Alike lines scope' →
    List.Forall₂ (Token.Alike lines) tokens tokens' →
    (read scope tokens).Alike lines V (read' scope' tokens')

/-- Turns that say the same, of items that `V` relates. -/
inductive Reader.Turn.Alike (V : α → α' → Prop) : Turn α → Turn α' → Prop
  | stop : Alike V .stop .stop
  | last {a : α} {a' : α'} : V a a' → Alike V (.last a) (.last a')
  | more {a : α} {a' : α'} : V a a' → Alike V (.more a) (.more a')

variable {lines}

/-! ## Looking at tokens -/

theorem stands_eq_of_alike {texts : List String} {tokens tokens' : List Token}
    (h : List.Forall₂ (Token.Alike lines) tokens tokens') :
    Reader.stands texts tokens = Reader.stands texts tokens' := by
  cases h with
  | nil => rfl
  | cons hhead => cases hhead; rfl

theorem isEmpty_eq_of_alike {tokens tokens' : List Token}
    (h : List.Forall₂ (Token.Alike lines) tokens tokens') : tokens.isEmpty = tokens'.isEmpty := by
  cases h <;> rfl

theorem map_text_eq_of_alike {tokens tokens' : List Token}
    (h : List.Forall₂ (Token.Alike lines) tokens tokens') :
    tokens.map (·.text) = tokens'.map (·.text) := by
  induction h with
  | nil => rfl
  | cons hhead _ ih => cases hhead; simp [ih]

theorem head?_alike {tokens tokens' : List Token}
    (h : List.Forall₂ (Token.Alike lines) tokens tokens') :
    Option.Rel (Token.Alike lines) tokens.head? tokens'.head? := by
  cases h with
  | nil => exact .none
  | cons hhead => exact .some hhead

theorem map_text_head?_eq_of_alike {tokens tokens' : List Token}
    (h : List.Forall₂ (Token.Alike lines) tokens tokens') :
    tokens.head?.map (·.text) = tokens'.head?.map (·.text) := by
  rw [← List.head?_map, ← List.head?_map, map_text_eq_of_alike h]

theorem tail_alike {tokens tokens' : List Token}
    (h : List.Forall₂ (Token.Alike lines) tokens tokens') :
    List.Forall₂ (Token.Alike lines) tokens.tail tokens'.tail := by
  cases h with
  | nil => exact .nil
  | cons _ htail => exact htail

theorem lineAt_alike {scope scope' : Scope} {tokens tokens' : List Token}
    (hscope : scope.Alike lines scope') (h : List.Forall₂ (Token.Alike lines) tokens tokens') :
    lines (Reader.lineAt scope tokens) (Reader.lineAt scope' tokens') := by
  cases h with
  | nil => exact hscope.line
  | cons hhead => cases hhead with | intro _ _ _ hline => exact hline

/-! ## Groups -/

namespace Bracket

variable (lines) in
/-- Groups that end alike. -/
inductive Closing.Alike : Closing → Closing → Prop
  | closed {inner inner' rest rest' : List Token} :
      List.Forall₂ (Token.Alike lines) inner inner' → List.Forall₂ (Token.Alike lines) rest rest' →
      Alike (.closed inner rest) (.closed inner' rest')
  | mismatched {found found' : Token} (innermost : Bracket) {rest rest' : List Token} :
      found.Alike lines found' → List.Forall₂ (Token.Alike lines) rest rest' →
      Alike (.mismatched found innermost rest) (.mismatched found' innermost rest')
  | endless : Alike .endless .endless

theorem Closing.Alike.cons {token token' : Token} {closing closing' : Closing}
    (h : closing.Alike lines closing') (htoken : token.Alike lines token') :
    (closing.cons token).Alike lines (closing'.cons token') := by
  cases h with
  | closed hinner hrest => exact .closed (.cons htoken hinner) hrest
  | mismatched innermost hfound hrest => exact .mismatched innermost hfound hrest
  | endless => exact .endless

theorem closeFrom_alike (outermost innermost : Bracket) (enclosing : List Bracket)
    {tokens tokens' : List Token} (h : List.Forall₂ (Token.Alike lines) tokens tokens') :
    (closeFrom outermost innermost enclosing tokens).Alike lines
      (closeFrom outermost innermost enclosing tokens') := by
  induction h generalizing innermost enclosing with
  | nil => exact .endless
  | @cons token token' tokens tokens' hhead htail ih =>
    have hrole : role outermost token = role outermost token' := by cases hhead; rfl
    simp only [closeFrom, hrole]
    split
    · exact (ih innermost enclosing).cons hhead
    · exact (ih _ _).cons hhead
    · split_ifs with hne
      · exact .mismatched innermost hhead htail
      · cases enclosing with
        | nil => exact .closed .nil htail
        | cons next outer => exact (ih next outer).cons hhead

end Bracket

/-! ## Readings that go on -/

namespace Reading.Alike

variable {V : α → α' → Prop} {W : β → β' → Prop} {scope scope' : Scope}
  {tokens tokens' : List Token}

theorem bind {read : Reader α} {read' : Reader α'} {next : α → Reader β} {next' : α' → Reader β'}
    (h : (read scope tokens).Alike lines V (read' scope' tokens'))
    (hscope : scope.Alike lines scope')
    (hnext : ∀ a a', V a a' → Reader.Alike lines W (next a) (next' a')) :
    ((read >>= next) scope tokens).Alike lines W ((read' >>= next') scope' tokens') := by
  obtain ⟨hresult, hrest⟩ := h
  generalize he : (read scope tokens).result = result at hresult
  generalize he' : (read' scope' tokens').result = result' at hresult
  cases hresult with
  | error hfault =>
    constructor
    · rw [(Reader.bind_of_error he).1, (Reader.bind_of_error he').1]
      exact .error hfault
    · rwa [(Reader.bind_of_error he).2, (Reader.bind_of_error he').2]
  | ok hvalue =>
    obtain ⟨hresult, hrest⟩ := hnext _ _ hvalue hscope hrest
    constructor
    · rwa [(Reader.bind_of_ok he).1, (Reader.bind_of_ok he').1]
    · rwa [(Reader.bind_of_ok he).2, (Reader.bind_of_ok he').2]

theorem of_ahead {next : List Token → Reader β} {next' : List Token → Reader β'}
    (h : (next tokens scope tokens).Alike lines W (next' tokens' scope' tokens')) :
    ((Reader.ahead >>= next) scope tokens).Alike lines W
      ((Reader.ahead >>= next') scope' tokens') :=
  ⟨h.result, h.rest⟩

/-- What is read after a token that is not looked at. -/
theorem of_skip {token token' : Token} {next : Unit → Reader β} {next' : Unit → Reader β'}
    (hscope : scope.Alike lines scope') (htokens : List.Forall₂ (Token.Alike lines) tokens tokens')
    (h : Reader.Alike lines W (next ()) (next' ())) :
    ((Reader.skip >>= next) scope (token :: tokens)).Alike lines W
      ((Reader.skip >>= next') scope' (token' :: tokens')) :=
  have h := h hscope htokens
  ⟨h.result, h.rest⟩

/-- A repetition goes on alike after alike first turns, if what remains is read alike. -/
theorem repeatFrom {turn : Nat → Reader (Reader.Turn α)} {turn' : Nat → Reader (Reader.Turn α')}
    {number : Nat}
    (h : (turn number scope tokens).Alike lines (Reader.Turn.Alike V) (turn' number scope' tokens'))
    (hlength : tokens.length = tokens'.length)
    (hothers : ∀ {mid mid' : List Token}, List.Forall₂ (Token.Alike lines) mid mid' →
      mid.length < tokens.length →
      (Reader.repeatFrom turn (number + 1) scope mid).Alike lines (List.Forall₂ V)
        (Reader.repeatFrom turn' (number + 1) scope' mid')) :
    (Reader.repeatFrom turn number scope tokens).Alike lines (List.Forall₂ V)
      (Reader.repeatFrom turn' number scope' tokens') := by
  obtain ⟨hresult, hrest⟩ := h
  generalize he : (turn number scope tokens).result = result at hresult
  generalize he' : (turn' number scope' tokens').result = result' at hresult
  cases hresult with
  | error hfault =>
    constructor
    · rw [(Reader.repeatFrom_of_error he).1, (Reader.repeatFrom_of_error he').1]
      exact .error hfault
    · rwa [(Reader.repeatFrom_of_error he).2, (Reader.repeatFrom_of_error he').2]
  | ok hturn =>
    cases hturn with
    | stop =>
      constructor
      · rw [(Reader.repeatFrom_of_stop he).1, (Reader.repeatFrom_of_stop he').1]
        exact .ok .nil
      · rwa [(Reader.repeatFrom_of_stop he).2, (Reader.repeatFrom_of_stop he').2]
    | last hvalue =>
      constructor
      · rw [(Reader.repeatFrom_of_last he).1, (Reader.repeatFrom_of_last he').1]
        exact .ok (.cons hvalue .nil)
      · rwa [(Reader.repeatFrom_of_last he).2, (Reader.repeatFrom_of_last he').2]
    | more hvalue =>
      -- Both turns leave equally many tokens, so that both go on or neither does.
      by_cases hlt : (turn number scope tokens).rest.length < tokens.length
      · have hlt' : (turn' number scope' tokens').rest.length < tokens'.length := by
          rwa [← hrest.length_eq, ← hlength]
        obtain ⟨hmore, hleft⟩ := hothers hrest hlt
        constructor
        · rw [(Reader.repeatFrom_of_more he hlt).1, (Reader.repeatFrom_of_more he' hlt').1]
          revert hmore
          generalize (Reader.repeatFrom turn _ _ _).result = others
          generalize (Reader.repeatFrom turn' _ _ _).result = others'
          rintro (hfault | hvalues)
          · exact .error hfault
          · exact .ok (.cons hvalue hvalues)
        · rwa [(Reader.repeatFrom_of_more he hlt).2, (Reader.repeatFrom_of_more he' hlt').2]
      · have hlt' : ¬ (turn' number scope' tokens').rest.length < tokens'.length := by
          rwa [← hrest.length_eq, ← hlength]
        constructor
        · rw [(Reader.repeatFrom_of_stuck he hlt).1, (Reader.repeatFrom_of_stuck he' hlt').1]
          exact .ok (.cons hvalue .nil)
        · rwa [(Reader.repeatFrom_of_stuck he hlt).2, (Reader.repeatFrom_of_stuck he' hlt').2]

end Reading.Alike

/-! ## Single readers -/

namespace Reader.Alike

theorem fail {V : α → α' → Prop} (cause : Cause) :
    Alike lines V (fail cause) (fail cause) := by
  intro scope scope' tokens tokens' hscope htokens
  refine ⟨.error ?_, htokens⟩
  rw [hscope.place_eq]
  exact .intro _ _ (.known (lineAt_alike hscope htokens))

theorem failAt {V : α → α' → Prop} (cause : Cause) {line line' : Nat} (hline : lines line line') :
    Alike lines V (Reader.fail cause line) (Reader.fail cause line') := by
  intro scope scope' tokens tokens' hscope htokens
  refine ⟨.error ?_, htokens⟩
  rw [hscope.place_eq]
  exact .intro _ _ (.known hline)

theorem refuse {V : α → α' → Prop} (cause : Cause) :
    Alike lines V (refuse cause) (refuse cause) := by
  intro scope scope' tokens tokens' hscope htokens
  refine ⟨.error ?_, htokens⟩
  rw [hscope.place_eq]
  exact .intro _ _ .unknown

theorem pure {V : α → α' → Prop} {a : α} {a' : α'} (h : V a a') :
    Alike lines V (pure a) (pure a') :=
  fun _ _ _ _ _ htokens ↦ ⟨.ok h, htokens⟩

theorem tell (notice notice' : Notice) :
    Alike lines Eq (tell notice) (tell notice') :=
  fun _ _ _ _ _ htokens ↦ ⟨.ok rfl, htokens⟩

theorem ahead : Alike lines (List.Forall₂ (Token.Alike lines)) ahead ahead :=
  fun _ _ _ _ _ htokens ↦ ⟨.ok htokens, htokens⟩

theorem next? : Alike lines (Option.Rel (Token.Alike lines)) next? next? :=
  fun _ _ _ _ _ htokens ↦ ⟨.ok (head?_alike htokens), tail_alike htokens⟩

theorem expect (text context : String) :
    Alike lines (Token.Alike lines) (expect text context) (expect text context) := by
  intro scope scope' tokens tokens' hscope htokens
  cases htokens with
  | nil => exact fail _ hscope .nil
  | cons hhead htail =>
    cases hhead with
    | intro kind text' freshLine hline =>
      by_cases his : Token.is ⟨kind, text', 0, freshLine⟩ text = true
      · have his' : ∀ line, Token.is ⟨kind, text', line, freshLine⟩ text = true := fun _ ↦ his
        simp only [Reader.expect, his', if_true]
        exact ⟨.ok (.intro _ _ _ hline), htail⟩
      · have his' : ∀ line, ¬ Token.is ⟨kind, text', line, freshLine⟩ text = true := fun _ ↦ his
        simp only [Reader.expect, his']
        exact fail _ hscope (.cons (.intro _ _ _ hline) htail)

theorem expectName (context : String) :
    Alike lines (Token.Alike lines) (expectName context) (expectName context) := by
  intro scope scope' tokens tokens' hscope htokens
  cases htokens with
  | nil => exact fail _ hscope .nil
  | cons hhead htail =>
    cases hhead with
    | intro kind text freshLine hline =>
      by_cases his : Token.isName ⟨kind, text, 0, freshLine⟩ = true
      · have his' : ∀ line, Token.isName ⟨kind, text, line, freshLine⟩ = true := fun _ ↦ his
        simp only [Reader.expectName, his', if_true]
        exact ⟨.ok (.intro _ _ _ hline), htail⟩
      · have his' : ∀ line, ¬ Token.isName ⟨kind, text, line, freshLine⟩ = true := fun _ ↦ his
        simp only [Reader.expectName, his']
        exact fail _ hscope (.cons (.intro _ _ _ hline) htail)

theorem group (bracket : Bracket) :
    Alike lines (List.Forall₂ (Token.Alike lines)) (group bracket) (group bracket) := by
  intro scope scope' tokens tokens' hscope htokens
  have hclosing := Bracket.closeFrom_alike bracket bracket [] (tail_alike htokens)
  rw [← Bracket.close, ← Bracket.close] at hclosing
  rw [Reader.group, Reader.group]
  generalize bracket.close tokens.tail = closing at hclosing
  generalize bracket.close tokens'.tail = closing' at hclosing
  cases hclosing with
  | closed hinner hrest => exact ⟨.ok hinner, hrest⟩
  | mismatched innermost hfound hrest =>
    cases hfound with
    | intro kind text freshLine hline => exact failAt _ hline hscope hrest
  | endless => exact failAt _ (lineAt_alike hscope htokens) hscope .nil

/-! ## Composition -/

theorem bind {V : α → α' → Prop} {W : β → β' → Prop} {read : Reader α} {read' : Reader α'}
    {next : α → Reader β} {next' : α' → Reader β'} (h : Alike lines V read read')
    (hnext : ∀ a a', V a a' → Alike lines W (next a) (next' a')) :
    Alike lines W (read >>= next) (read' >>= next') :=
  fun _ _ _ _ hscope htokens ↦ (h hscope htokens).bind hscope hnext

theorem map {V : α → α' → Prop} {W : β → β' → Prop} {read : Reader α} {read' : Reader α'}
    {f : α → β} {f' : α' → β'} (h : Alike lines V read read')
    (hf : ∀ a a', V a a' → W (f a) (f' a')) : Alike lines W (f <$> read) (f' <$> read') :=
  bind h fun a a' hvalue ↦ pure (hf a a' hvalue)

theorem inMember {V : α → α' → Prop} {read : Reader α} {read' : Reader α'} (member : String)
    (h : Alike lines V read read') :
    Alike lines V (inMember member read) (inMember member read') := by
  intro scope scope' tokens tokens' hscope htokens
  refine h ⟨?_, hscope.line⟩ htokens
  rw [hscope.place_eq]

theorem ite {V : α → α' → Prop} {p p' : Prop} [Decidable p] [Decidable p']
    {read other : Reader α} {read' other' : Reader α'} (hp : p ↔ p')
    (h : Alike lines V read read') (hother : Alike lines V other other') :
    Alike lines V (if p then read else other) (if p' then read' else other') := by
  by_cases hcond : p
  · rwa [if_pos hcond, if_pos (hp.mp hcond)]
  · rwa [if_neg hcond, if_neg fun h ↦ hcond (hp.mpr h)]

theorem either {V : α → α' → Prop} {W : β → β' → Prop} {p p' : Prop} [Decidable p]
    [Decidable p'] {read other : Reader α} {read' other' : Reader α'} {next : α → Reader β}
    {next' : α' → Reader β'} (hp : p ↔ p') (h : Alike lines V read read')
    (hother : Alike lines V other other')
    (hnext : ∀ a a', V a a' → Alike lines W (next a) (next' a')) :
    Alike lines W (if p then read >>= next else other >>= next)
      (if p' then read' >>= next' else other' >>= next') :=
  ite hp (bind h hnext) (bind hother hnext)

/-- A part that is read under a condition, before what is read in any case. -/
theorem optionally {V : α → α' → Prop} {W : β → β' → Prop} {p p' : Prop} [Decidable p]
    [Decidable p'] {read : Reader α} {read' : Reader α'} {next : Reader β} {next' : Reader β'}
    (hp : p ↔ p') (h : Alike lines V read read') (hnext : Alike lines W next next') :
    Alike lines W (if p then read >>= fun _ ↦ next else next)
      (if p' then read' >>= fun _ ↦ next' else next') :=
  ite hp (bind h fun _ _ _ ↦ hnext) hnext

/-- A condition without which reading fails. -/
theorem guarded {W : β → β' → Prop} {p p' : Prop} [Decidable p] [Decidable p']
    {refusal refusal' : Reader α} {next : Reader β} {next' : Reader β'}
    (hp : p ↔ p') (h : Alike lines Eq refusal refusal') (hnext : Alike lines W next next') :
    Alike lines W (if p then next else refusal >>= fun _ ↦ next)
      (if p' then next' else refusal' >>= fun _ ↦ next') :=
  ite hp hnext (bind h fun _ _ _ ↦ hnext)

theorem repeatFrom {V : α → α' → Prop} {turn : Nat → Reader (Turn α)}
    {turn' : Nat → Reader (Turn α')} (h : ∀ number, Alike lines (Turn.Alike V) (turn number)
      (turn' number)) (number : Nat) :
    Alike lines (List.Forall₂ V) (repeatFrom turn number) (repeatFrom turn' number) := by
  intro scope scope' tokens tokens' hscope htokens
  induction hn : tokens.length using Nat.strongRecOn generalizing number tokens tokens' with
  | ind n ih =>
    refine (h number hscope htokens).repeatFrom htokens.length_eq fun hmid hlt ↦ ?_
    exact ih _ (hn ▸ hlt) (number + 1) hmid rfl

theorem repeated {V : α → α' → Prop} {turn : Reader (Turn α)} {turn' : Reader (Turn α')}
    (h : Alike lines (Turn.Alike V) turn turn') :
    Alike lines (List.Forall₂ V) (repeated turn) (repeated turn') :=
  repeatFrom (fun _ ↦ h) 0

/-! ## Derived readers -/

theorem sees (text : String) : Alike lines Eq (sees text) (sees text) :=
  bind ahead fun _ _ h ↦ pure (stands_eq_of_alike h)

theorem skip : Alike lines Eq skip skip :=
  bind next? fun _ _ _ ↦ pure rfl

theorem accept? (text : String) :
    Alike lines (Option.Rel (Token.Alike lines)) (accept? text) (accept? text) := by
  refine bind (sees text) ?_
  rintro b _ rfl
  exact ite Iff.rfl next? (pure .none)

theorem accept (text : String) : Alike lines Eq (accept text) (accept text) := by
  refine bind (accept? text) fun a a' h ↦ pure ?_
  cases h <;> rfl

theorem separated {V : α → α' → Prop} {item : Reader α} {item' : Reader α'}
    (h : Alike lines V item item') :
    Alike lines (List.Forall₂ V) (separated item) (separated item') := by
  refine bind h fun first first' hfirst ↦ bind (repeated ?_) fun others others' hothers ↦
    pure (.cons hfirst hothers)
  refine bind (accept ",") ?_
  rintro b _ rfl
  exact ite Iff.rfl (bind h fun a a' ha ↦ pure (.more ha)) (pure .stop)

theorem collectUntil {stop : List Token → Bool}
    (hstop : ∀ {tokens tokens'}, List.Forall₂ (Token.Alike lines) tokens tokens' →
      stop tokens = stop tokens') :
    Alike lines (List.Forall₂ (Token.Alike lines)) (collectUntil stop) (collectUntil stop) := by
  refine bind (V := List.Forall₂ (List.Forall₂ (Token.Alike lines))) (repeated ?_)
    fun parts parts' hparts ↦ pure ?_
  · refine bind ahead fun tokens tokens' htokens ↦ ?_
    rw [hstop htokens]
    refine ite Iff.rfl (pure .stop) ?_
    cases htokens with
    | nil => exact fail _
    | cons hhead _ =>
      cases hhead with
      | intro kind text freshLine hline =>
        have hfind : ∀ line line', (fun bracket : Bracket ↦
            Token.is ⟨kind, text, line, freshLine⟩ bracket.opener) = fun bracket ↦
            Token.is ⟨kind, text, line', freshLine⟩ bracket.opener := fun _ _ ↦ rfl
        simp only [hfind _ 0]
        split
        · refine bind (group _) fun inner inner' hinner ↦ pure (.more ?_)
          exact List.rel_append (.cons (.intro _ _ _ hline) hinner)
            (.cons (.intro _ _ _ hline) .nil)
        · exact bind skip fun _ _ _ ↦ pure (.more (.cons (.intro _ _ _ hline) .nil))
  · exact List.rel_flatten hparts

/-- Alike tokens are read as related values. -/
theorem exists_reads {V : α → α' → Prop} {read : Reader α} {read' : Reader α'}
    (h : Alike lines V read read') {scope scope' : Scope} {tokens tokens' rest : List Token} {a : α}
    (hscope : scope.Alike lines scope') (htokens : List.Forall₂ (Token.Alike lines) tokens tokens')
    (hread : Reads read scope tokens a rest) : ∃ a' rest', V a a' ∧
      Reads read' scope' tokens' a' rest' ∧ List.Forall₂ (Token.Alike lines) rest rest' := by
  obtain ⟨hresult, hrest⟩ := h hscope htokens
  rw [hread.rest_eq] at hrest
  rw [hread.result_eq] at hresult
  generalize hvalue : (read' scope' tokens').result = result at hresult
  cases hresult with
  | ok hrelated => exact ⟨_, _, hrelated, ⟨hvalue, rfl⟩, hrest⟩

/-- Alike tokens are read as the same value. -/
theorem reads {α : Type} {read read' : Reader α} (h : Alike lines Eq read read')
    {scope scope' : Scope} {tokens tokens' rest : List Token} {a : α}
    (hscope : scope.Alike lines scope') (htokens : List.Forall₂ (Token.Alike lines) tokens tokens')
    (hread : Reads read scope tokens a rest) :
    ∃ rest', Reads read' scope' tokens' a rest' ∧ List.Forall₂ (Token.Alike lines) rest rest' := by
  obtain ⟨a', rest', rfl, hread', hrest⟩ := h.exists_reads hscope htokens hread
  exact ⟨rest', hread', hrest⟩

end Reader.Alike

end TestDouble
