import TestDouble.Proofs.Reader.Alike
import TestDouble.SwiftType.Read

/-!
# Types of alike tokens

The reader for types is made of alike parts, so tokens that differ in their lines only give the same
type, and what they leave differs in its lines only.
-/

namespace TestDouble

open Reader

variable {lines : Nat → Nat → Prop}

/-! ## Looking ahead -/

@[simp] theorem forall₂_eq_iff {α : Type} {items items' : List α} :
    List.Forall₂ Eq items items' ↔ items = items' := by
  rw [List.forall₂_eq_eq_eq]

theorem adjoins_eq_of_alike {text : String} {tokens tokens' : List Token}
    (h : List.Forall₂ (Token.Alike lines) tokens tokens') :
    adjoins text tokens = adjoins text tokens' := by
  cases h with
  | nil => rfl
  | cons hhead => cases hhead; rfl

theorem join_eq_of_alike {tokens tokens' : List Token}
    (h : List.Forall₂ (Token.Alike lines) tokens tokens') :
    Token.join tokens = Token.join tokens' := by
  rw [Token.join, Token.join, map_text_eq_of_alike h]

namespace SwiftType

theorem modifies_eq_of_alike {words : List String} {tokens tokens' : List Token}
    (h : List.Forall₂ (Token.Alike lines) tokens tokens') :
    modifies words tokens = modifies words tokens' := by
  cases h with
  | nil => rfl
  | cons hhead htail =>
    cases hhead
    cases htail with
    | nil => rfl
    | cons hnext => cases hnext; rfl

theorem arrowFrom_eq_of_alike (afterEffect : Bool) (depth : Nat) {tokens tokens' : List Token}
    (h : List.Forall₂ (Token.Alike lines) tokens tokens') :
    arrowFrom afterEffect depth tokens = arrowFrom afterEffect depth tokens' := by
  induction h generalizing afterEffect depth with
  | nil => cases depth <;> rfl
  | cons hhead _ ih =>
    cases hhead with
    | intro kind text freshLine hline =>
      cases depth with
      | zero =>
        simp only [arrowFrom, ih]
        rfl
      | succ depth => simp only [arrowFrom, ih]

end SwiftType

/-! ## Pieces that are kept as text -/

theorem adjoinedGroup_alike (bracket : Bracket) :
    Alike lines Eq (adjoinedGroup bracket) (adjoinedGroup bracket) := by
  refine .bind .ahead fun tokens tokens' htokens ↦ ?_
  rw [adjoins_eq_of_alike htokens]
  refine .ite Iff.rfl (.bind (.group bracket) fun inner inner' hinner ↦ ?_) (.pure rfl)
  rw [join_eq_of_alike hinner]
  exact .pure rfl

theorem text_getD_eq_of_alike {token? token?' : Option Token}
    (h : Option.Rel (Token.Alike lines) token? token?') :
    (token?.map (·.text)).getD "" = (token?'.map (·.text)).getD "" := by
  cases h with
  | none => rfl
  | some htoken => cases htoken; rfl

theorem readAttribute_alike (beforeType : Bool) :
    Alike lines Eq (readAttribute beforeType) (readAttribute beforeType) := by
  refine .bind .next? fun token? token?' htoken ↦ ?_
  simp only [text_getD_eq_of_alike htoken]
  refine .ite Iff.rfl (.pure rfl) (.bind (adjoinedGroup_alike _) ?_)
  rintro text _ rfl
  exact .pure rfl

namespace SwiftType

theorem specifier_alike : Alike lines (Turn.Alike Eq) specifier specifier := by
  refine .bind .ahead fun tokens tokens' htokens ↦ .ite ?_ ?_ (.bind (.accept "inout") ?_)
  · cases htokens with
    | nil => rfl
    | cons hhead => cases hhead; rfl
  · refine .bind (readAttribute_alike true) ?_
    rintro text _ rfl
    exact .pure (.more rfl)
  · rintro seen _ rfl
    refine .ite Iff.rfl (.pure (.more rfl)) ?_
    rw [modifies_eq_of_alike htokens]
    refine .ite Iff.rfl (.bind .next? fun token? token?' htoken ↦ .pure (.more ?_)) (.pure .stop)
    rw [text_getD_eq_of_alike htoken]

/-! ## Simple types -/

theorem missing_alike {α : Type} {V : α → α → Prop} : Alike lines V missing missing := by
  refine .bind .ahead fun tokens tokens' htokens ↦ ?_
  rw [map_text_head?_eq_of_alike htokens]
  exact .fail _

section Rules

variable {type : Reader SwiftType} (htype : Alike lines Eq type type)
include htype

theorem genericArguments_alike :
    Alike lines Eq (genericArguments type) (genericArguments type) := by
  refine .bind .ahead fun tokens tokens' htokens ↦ ?_
  rw [adjoins_eq_of_alike htokens]
  refine .ite Iff.rfl (.bind .skip fun _ _ _ ↦ .bind (.separated htype) fun types types' h ↦ ?_)
    (.pure rfl)
  obtain rfl := forall₂_eq_iff.mp h
  exact .bind (.expect _ _) fun _ _ _ ↦ .pure rfl

omit htype in
theorem elementLabel_alike : Alike lines Eq elementLabel elementLabel := by
  refine .bind .ahead fun tokens tokens' htokens ↦ ?_
  cases htokens with
  | nil => exact .pure rfl
  | cons hfirst htail =>
    cases htail with
    | nil => exact .pure rfl
    | cons hsecond hrest =>
      cases hfirst
      cases hsecond
      have hstands : stands [":"] _ = stands [":"] _ := stands_eq_of_alike hrest
      simp only [hstands]
      refine .ite Iff.rfl ?_ (.ite Iff.rfl ?_ (.pure rfl))
      · exact .bind .skip fun _ _ _ ↦ .bind .skip fun _ _ _ ↦ .pure rfl
      · exact .bind .skip fun _ _ _ ↦ .bind .skip fun _ _ _ ↦ .bind .skip fun _ _ _ ↦ .pure rfl

theorem element_alike : Alike lines Eq (element type) (element type) := by
  refine .bind elementLabel_alike ?_
  rintro label _ rfl
  refine .bind htype ?_
  rintro type _ rfl
  refine .bind (.accept _) ?_
  rintro isVariadic _ rfl
  exact .pure rfl

theorem tuple_alike : Alike lines Eq (tuple type) (tuple type) := by
  refine .bind (.expect _ _) fun opener opener' hopener ↦ .bind (V := List.Forall₂ Eq)
    (.repeated (.bind .ahead fun tokens tokens' htokens ↦ ?_)) fun elements elements' h ↦ ?_
  · have helement : Alike lines (Turn.Alike Eq)
        (do let element ← element type
            if ← accept "," then return Turn.more element else return Turn.last element)
        (do let element ← element type
            if ← accept "," then return Turn.more element else return Turn.last element) := by
      refine .bind (element_alike htype) ?_
      rintro element _ rfl
      refine .bind (.accept _) ?_
      rintro seen _ rfl
      exact .ite Iff.rfl (.pure (.more rfl)) (.pure (.last rfl))
    rw [stands_eq_of_alike htokens, isEmpty_eq_of_alike htokens]
    cases hopener with
    | intro _ _ _ hline =>
      exact .ite Iff.rfl (.pure .stop)
        (.ite Iff.rfl (.bind (.failAt (V := Eq) _ hline) fun _ _ _ ↦ helement) helement)
  · obtain rfl := forall₂_eq_iff.mp h
    exact .bind (.expect _ _) fun _ _ _ ↦ .pure rfl

theorem collection_alike : Alike lines Eq (collection type) (collection type) := by
  refine .bind .skip fun _ _ _ ↦ .bind htype ?_
  rintro first _ rfl
  refine .bind (.accept _) ?_
  rintro seen _ rfl
  refine .ite Iff.rfl (.bind htype ?_) (.bind (.expect _ _) fun _ _ _ ↦ .pure rfl)
  rintro value _ rfl
  exact .bind (.expect _ _) fun _ _ _ ↦ .pure rfl

theorem primary_alike : Alike lines Eq (primary type) (primary type) := by
  refine .bind .ahead fun tokens tokens' htokens ↦ ?_
  cases htokens with
  | nil => exact missing_alike
  | cons hhead =>
    cases hhead
    refine .ite Iff.rfl (tuple_alike htype) (.ite Iff.rfl (collection_alike htype)
      (.ite Iff.rfl (.bind .skip fun _ _ _ ↦ .bind (genericArguments_alike htype) ?_)
        missing_alike))
    rintro arguments _ rfl
    exact .pure rfl

theorem suffix_alike : Alike lines (Turn.Alike Eq) (suffix type) (suffix type) := by
  refine .bind .ahead fun tokens tokens' htokens ↦ ?_
  cases htokens with
  | nil => exact .pure .stop
  | cons hhead htail =>
    cases hhead
    refine .ite Iff.rfl (.pure .stop) (.ite Iff.rfl (.bind .skip fun _ _ _ ↦ .pure (.more rfl))
      (.ite Iff.rfl (.bind .skip fun _ _ _ ↦ .pure (.more rfl)) (.ite Iff.rfl ?_ (.pure .stop))))
    cases htail with
    | nil => exact .pure .stop
    | cons hname =>
      cases hname
      refine .ite Iff.rfl (.bind .skip fun _ _ _ ↦ .bind .skip fun _ _ _ ↦
        .bind (genericArguments_alike htype) ?_) (.pure .stop)
      rintro arguments _ rfl
      exact .pure (.more rfl)

theorem component_alike : Alike lines Eq (component type) (component type) := by
  refine .bind (primary_alike htype) ?_
  rintro primary _ rfl
  refine .bind (.repeated (suffix_alike htype)) fun suffixes suffixes' h ↦ ?_
  obtain rfl := forall₂_eq_iff.mp h
  exact .pure rfl

/-! ## Types -/

omit htype in
theorem functionEffect_alike : Alike lines (Turn.Alike Eq) functionEffect functionEffect := by
  refine .bind (.accept _) ?_
  rintro seen _ rfl
  refine .ite Iff.rfl (.pure (.more rfl)) (.bind (.accept _) ?_)
  rintro seen _ rfl
  refine .ite Iff.rfl (.bind (adjoinedGroup_alike _) ?_) (.pure .stop)
  rintro text _ rfl
  exact .pure (.more rfl)

theorem function_alike (lead : String) (parameters : Component) :
    Alike lines Eq (function type lead parameters) (function type lead parameters) := by
  refine .bind (.repeated functionEffect_alike) fun effects effects' h ↦ ?_
  obtain rfl := forall₂_eq_iff.mp h
  refine .bind (.expect _ _) fun _ _ _ ↦ .bind htype ?_
  rintro result _ rfl
  exact .pure rfl

omit htype in
theorem lead_alike : Alike lines Eq lead lead := by
  refine .bind .ahead fun tokens tokens' htokens ↦ ?_
  rw [modifies_eq_of_alike htokens]
  refine .ite Iff.rfl (.bind .next? fun token? token?' htoken ↦ .pure ?_) (.pure rfl)
  rw [text_getD_eq_of_alike htoken]

theorem bare_alike : Alike lines Eq (bare type) (bare type) := by
  refine .bind lead_alike ?_
  rintro lead _ rfl
  refine .bind (.sees _) ?_
  rintro startsRound _ rfl
  refine .bind (component_alike htype) ?_
  rintro first _ rfl
  refine .bind .ahead fun tokens tokens' htokens ↦ ?_
  rw [arrowAhead, arrowAhead, arrowFrom_eq_of_alike _ _ htokens]
  refine .ite Iff.rfl (function_alike htype lead first) (.bind (.sees _) ?_)
  rintro seen _ rfl
  refine .ite Iff.rfl (.bind (V := List.Forall₂ Eq) (.repeated (.bind (.accept _) ?_))
    fun others others' h ↦ ?_) (.ite Iff.rfl (.pure rfl) (.pure rfl))
  · rintro seen _ rfl
    refine .ite Iff.rfl (.bind (component_alike htype) ?_) (.pure .stop)
    rintro next _ rfl
    exact .pure (.more rfl)
  · obtain rfl := forall₂_eq_iff.mp h
    exact .pure rfl

theorem annotated_alike : Alike lines Eq (annotated type) (annotated type) := by
  refine .bind (.repeated specifier_alike) fun specifiers specifiers' h ↦ ?_
  obtain rfl := forall₂_eq_iff.mp h
  refine .bind (bare_alike htype) ?_
  rintro bare _ rfl
  exact .bind (.tell _ _) fun _ _ _ ↦ .pure rfl

end Rules

theorem readWithin_alike (depth : Nat) : Alike lines Eq (readWithin depth) (readWithin depth) := by
  induction depth with
  | zero => exact missing_alike
  | succ depth ih => exact annotated_alike ih

theorem read_alike : Alike lines Eq read read := by
  intro scope scope' tokens tokens' hscope htokens
  rw [read, read, htokens.length_eq]
  exact readWithin_alike _ hscope htokens

end SwiftType

end TestDouble
