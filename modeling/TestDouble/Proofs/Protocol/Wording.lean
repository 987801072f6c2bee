import TestDouble.Proofs.Mock.Signature
import TestDouble.Proofs.Protocol.Recovers
import TestDouble.Proofs.Protocol.Signature
import TestDouble.Proofs.Protocol.Spelling
import TestDouble.Proofs.Protocol.Unnamed

/-!
# Recovering what stands in a signature

A signature is made of the texts of its parts. Each of them is recovered, in the sense of
`Reader.Recovers`, if the tokens that the method was read from are such that types and groups are.
What is said of the tokens is put on the whole method, and comes down to the parts by `Keeps`.

A parameter is recovered up to its label: one that repeats the name is left out of a declaration.
-/

namespace TestDouble

open Reader Token
open SwiftType (Avoids EndsElement EndsType Tame ellipsis endsWord_ellipsis spells_ellipsis)

/-! ## Effects -/

namespace Method

/-- The words for effects. -/
def effectWords : List String :=
  ["async", "throws", "rethrows"]

/-- The effects as a signature says them. -/
def effectsText (effects : List String) : String :=
  String.join (effects.map (" " ++ ·))

private theorem text_mem_effectWords {token : Token} (h : effectWords.any token.is = true) :
    token.text ∈ effectWords := by
  obtain ⟨word, hmem, his⟩ := List.any_eq_true.mp h
  rwa [text_eq_of_is his]

private theorem reads_effect_stop {scope : Scope} {tokens : List Token}
    (h : Avoids effectWords tokens) : Reads effect scope tokens .stop tokens := by
  refine reads_ahead_bind_iff.mpr ?_
  rcases tokens with _ | ⟨token, tokens⟩
  · simp
  · refine reads_ite_iff.mpr (.inr ⟨fun hword ↦ ?_, .pure⟩)
    exact h token rfl (text_mem_effectWords hword)

/-- An effect is recovered, and no parenthesis begins it. -/
structure RecoversEffect (effect : String) (tokens : List Token) : Prop extends
    Recovers Method.effect (Avoids ["("]) effect (Turn.more effect) tokens where
  ne_nil : tokens ≠ []
  avoids : ∀ after, Avoids ["("] (tokens ++ after)

private theorem recoversEffect {token : Token} (hspelled : Spelled token.kind token.text.toList)
    (hword : effectWords.any token.is = true) {arguments : String} {item : List Token}
    (h : RecoversGroup .round arguments item) :
    RecoversEffect (token.text ++ arguments) (token.unbroken :: item) where
  toRecovers := by
    have hkinds : ∀ word ∈ effectWords, Spelled .identifier word.toList ∨
        Spelled .keyword word.toList := by decide +kernel
    have hkind : token.kind ∈ [Kind.identifier, .keyword, .attribute] := by
      rcases hkinds _ (text_mem_effectWords hword) with hword | hword <;>
        rw [hspelled.kind_eq hword] <;> decide
    refine .of_shifts (fun tail htail ↦ ?_) (fun scope after hafter ↦ ?_) nofun fun _ _ _ ↦ .effect
    · rw [String.toList_append]
      exact .word hspelled hkind (h.endsWord tail htail) (h.spells tail htail)
    · refine reads_ahead_bind_iff.mpr ?_
      have hunbroken : ["async", "throws", "rethrows"].any token.unbroken.is = true := hword
      dsimp only [List.cons_append]
      rw [if_pos hunbroken]
      have hgroup := h.reads scope after hafter
      exact reads_skip_bind_iff.mpr (hgroup.bind_iff.mpr .pure)
  ne_nil := List.cons_ne_nil _ _
  avoids after := by
    have hnone : ∀ word ∈ effectWords, word ∉ ["("] := by decide
    exact .of_cons (hnone token.text (text_mem_effectWords hword))

theorem keeps_effect {whole : List Token}
    (hspelled : ∀ token ∈ whole, Spelled token.kind token.text.toList) (hapart : Apart whole)
    (scope : Scope) (tokens : List Token) :
    Keeps whole (Turn.All fun effect ↦ ∃ item, RecoversEffect effect item) effect scope tokens := by
  refine .ahead_bind ?_
  rcases tokens with _ | ⟨token, tokens⟩
  · exact .pure trivial
  refine .ite (fun hword ↦ .skip_bind ?_) fun _ ↦ .pure trivial
  refine (keeps_adjoinedGroup hspelled hapart (by decide) scope tokens).bind fun arguments mid ↦
    .pure ?_
  rintro ⟨item, hitem⟩ hmem
  exact ⟨_, recoversEffect (hspelled token hmem) hword hitem⟩

theorem spells_effectsText {effects : List String} {items : List (List Token)}
    (h : List.Forall₂ RecoversEffect effects items) {tail : List Char} (htail : EndsWord tail) :
    Spells tail (effectsText effects).toList items.flatten ∧
      EndsWord ((effectsText effects).toList ++ tail) :=
  Spells.spacedOut (h.imp fun _ _ heffect ↦ heffect.spells) htail

theorem recovers_effects {effects : List String} {items : List (List Token)}
    (h : List.Forall₂ RecoversEffect effects items) :
    Recovers (repeated effect) (Avoids ("(" :: effectWords)) (effectsText effects) effects
      items.flatten where
  spells tail htail := (spells_effectsText h htail).1
  reads scope after hafter := by
    have hround : Avoids ["("] after := hafter.mono (by decide)
    have hstop : Avoids effectWords after := hafter.mono fun _ ↦ List.mem_cons_of_mem _
    refine .repeated_flatten (h.imp fun effect item heffect ↦ ?_) hround (reads_effect_stop hstop)
    exact ⟨heffect.ne_nil, heffect.avoids, heffect.reads scope⟩
  nests opened := by
    induction h with
    | nil => exact .nil
    | cons hfirst _ ih => exact (hfirst.nests opened).append ih

end Method

/-! ## Parameters -/

/-- The token is a name amid a line. -/
structure NameInLine (token : Token) : Prop where
  isName : token.isName = true
  spelled : Spelled token.kind token.text.toList
  freshLine : token.freshLine = false

theorem Nameable.exists_nameInLine {text : String} (h : Nameable text) :
    ∃ token, NameInLine token ∧ token.text = text := by
  rcases h with h | h
  · exact ⟨inLine .identifier text, ⟨rfl, h, rfl⟩, rfl⟩
  · exact ⟨inLine .keyword text, ⟨rfl, h, rfl⟩, rfl⟩

theorem NameInLine.kind {token : Token} (h : NameInLine token) :
    token.kind ∈ [Kind.identifier, .keyword] := by
  have hname := h.isName
  rw [Token.isName, Bool.or_eq_true, decide_eq_true_eq, decide_eq_true_eq] at hname
  simpa using hname

theorem NameInLine.spells {token : Token} (h : NameInLine token) {tail text : List Char}
    {tokens : List Token} (hends : EndsWord (text ++ tail)) (hspells : Spells tail text tokens) :
    Spells tail (token.text.toList ++ text) (token :: tokens) :=
  .token h.spelled h.freshLine (abuts_word (List.mem_of_mem_dropLast h.kind) hends) hspells

theorem NameInLine.is_mark {token : Token} (h : NameInLine token) {mark : String}
    (hmark : (Kind.punctuation, mark) ∈ closedSymbols) : token.is mark = false := by
  have hkind : token.kind ≠ .punctuation := fun heq ↦ by
    have hmem := h.kind
    rw [heq] at hmem
    exact absurd hmem (by decide)
  simp [Token.is, h.spelled.ne_closedSymbol hmark hkind]

namespace Parameter

/-- The parameter as its declaration says it: a label that is the name is not repeated. -/
def unrepeated (parameter : Parameter) : Parameter :=
  { parameter with label? := parameter.label?.filter (· ≠ parameter.name) }

theorem agrees_unrepeated (parameter : Parameter) : parameter.Agrees parameter.unrepeated where
  label_eq := by
    rcases hlabel : parameter.label? with _ | label
    · simp [label, unrepeated, hlabel]
    · by_cases hname : label = parameter.name <;>
        simp [Parameter.label, unrepeated, hlabel, hname, Option.filter_some]
  name_eq := rfl
  type_eq := rfl
  isVariadic_eq := rfl

section Reading

variable {scope : Scope} {position : Nat} {first : Token} {second? : Option Token}
  {type : SwiftType} {item after : List Token}

/-- What a parameter is after its names. -/
theorem reads_readAfterNames (htype : Recovers SwiftType.read EndsType type.declared type item)
    (hnamed : (second?.getD first).text ≠ wildcard) (isVariadic : Bool)
    (hafter : EndsElement after) :
    Reads (readAfterNames position first second?) scope
      (inLine .punctuation ":" :: (item ++ (ellipsis isVariadic ++ after)))
      { name := (second?.getD first).text, type, label? := second?.map fun _ ↦ first.text,
        isVariadic } after := by
  have hread := htype.reads scope _ (hafter.ellipsis isVariadic).1
  have hdots := hafter.reads_ellipsis isVariadic scope
  have hdefault : stands ["="] after = false := hafter.stands_eq_false (by decide)
  refine (reads_expect_bind_iff_of_is rfl).mpr (hread.bind_iff.mpr (hdots.bind_iff.mpr ?_))
  refine (reads_accept_bind_iff_of_not_stands hdefault).mpr (reads_pure_iff.mpr ⟨?_, rfl⟩)
  rw [if_pos hnamed, if_pos hnamed]

/-- The names of a parameter are read up to the colon. -/
theorem reads_read_iff_of_names {parameter : Parameter} {rest : List Token}
    (hfirst : first.isName = true) (hsecond : ∀ second ∈ second?, second.isName = true) :
    Reads (Parameter.read position) scope
        (first :: (second?.toList ++ inLine .punctuation ":" :: after)) parameter rest ↔
      Reads (readAfterNames position first second?) scope (inLine .punctuation ":" :: after)
        parameter rest := by
  have hread : Parameter.read position = (do
      let first ← expectName "for parameter"
      let second? := (← ahead).head?.filter Token.isName
      if second?.isSome then skip
      readAfterNames position first second?) := rfl
  have hname (context : String) (back : List Token) :
      Reads (expectName context) scope (first :: back) first back :=
    reads_expectName_iff.mpr ⟨rfl, hfirst⟩
  rw [hread, (hname _ _).bind_iff, reads_ahead_bind_iff]
  rcases second? with _ | second
  · exact Iff.rfl
  · have his : Option.filter Token.isName (some second) = some second :=
      (Option.filter_eq_some_iff).mpr ⟨rfl, hsecond second rfl⟩
    rw [Option.toList_some, List.singleton_append, List.head?_cons, his]
    exact reads_skip_bind_iff

end Reading

/-- The tokens in front of a colon say the name of the parameter, and its label if that is another
word. -/
structure Headed (parameter : Parameter) (first : Token) (second? : Option Token) : Prop where
  nameInLine_first : NameInLine first
  nameInLine_second : ∀ second ∈ second?, NameInLine second
  name_eq : (second?.getD first).text = parameter.name
  label?_eq : second?.map (fun _ ↦ first.text) = parameter.unrepeated.label?

private theorem exists_headed {parameter : Parameter} (hname : Nameable parameter.name)
    (hlabel : ∀ label ∈ parameter.label?, Nameable label) :
    ∃ first second?, parameter.Headed first second? := by
  obtain ⟨name, hname, htext⟩ := hname.exists_nameInLine
  rcases hunrepeated : parameter.unrepeated.label? with _ | label
  · exact ⟨name, none, hname, nofun, htext, hunrepeated.symm⟩
  · obtain ⟨hsome, -⟩ := Option.filter_eq_some_iff.mp hunrepeated
    obtain ⟨first, hfirst, rfl⟩ := (hlabel label hsome).exists_nameInLine
    refine ⟨first, some name, hfirst, ?_, htext, hunrepeated.symm⟩
    rintro _ ⟨⟩
    exact hname

private theorem declaration_eq_unrepeated (parameter : Parameter) : parameter.declaration =
    (parameter.unrepeated.label?.map (· ++ " ")).getD "" ++ parameter.name ++ ": " ++
      parameter.type.declared ++ if parameter.isVariadic then "..." else "" := by
  rcases hlabel : parameter.label? with _ | label
  · simp [declaration, unrepeated, hlabel, toString]
  · by_cases hname : label = parameter.name <;>
      simp [declaration, unrepeated, hlabel, hname, toString, Option.filter_some]

/-- The declaration of a parameter is read as the parameter in any clause. -/
structure Recovered (parameter : Parameter) (tokens : List Token) : Prop where
  recovers : ∀ position, Recovers (Parameter.read position) EndsElement parameter.declaration
    parameter.unrepeated tokens
  begins : ∃ first back, tokens = first :: back ∧ first.is ")" = false

namespace Headed

variable {parameter : Parameter} {first : Token} {second? : Option Token}
  (h : parameter.Headed first second?)
include h

theorem spells {tail text : List Char} {tokens : List Token} (hends : EndsWord (text ++ tail))
    (hspells : Spells tail text tokens) : Spells tail
      (((parameter.unrepeated.label?.map (· ++ " ")).getD "" ++ parameter.name).toList ++ text)
      (first :: (second?.toList ++ tokens)) := by
  obtain ⟨hfirst, hsecond, hname, hlabel⟩ := h
  rw [← hname, ← hlabel]
  rcases second? with _ | second
  · simpa using hfirst.spells hends hspells
  · have hback := (hsecond second rfl).spells hends hspells
    have hblank : EndsWord (' ' :: (second.text.toList ++ text) ++ tail) :=
      .of_cons (by decide +kernel)
    have hspells := hfirst.spells hblank (.blank hback)
    simpa using hspells

theorem nests {tokens : List Token} {opened : List Bracket}
    (hnests : Nests (· ≠ .curly) opened tokens opened) :
    Nests (· ≠ .curly) opened (first :: (second?.toList ++ tokens)) opened := by
  have hname {token : Token} (h : NameInLine token) :
      Nests (· ≠ .curly) opened [token] opened := .of_isName h.spelled h.isName
  rcases second? with _ | second
  · exact (hname h.nameInLine_first).append hnests
  · exact (hname h.nameInLine_first).append ((hname (h.nameInLine_second second rfl)).append hnests)

theorem recovered (hwritten : parameter.name ≠ wildcard) {item : List Token}
    (htype : Recovers SwiftType.read EndsType parameter.type.declared parameter.type item) :
    parameter.Recovered (first :: (second?.toList ++
      inLine .punctuation ":" :: (item ++ ellipsis parameter.isVariadic))) where
  recovers position := by
    refine ⟨fun tail htail ↦ ?_, fun scope after hafter ↦ ?_, fun opened ↦ ?_⟩
    · have hdots := spells_ellipsis parameter.isVariadic tail
      have hends := endsWord_ellipsis parameter.isVariadic htail
      have hcolon : (Kind.punctuation, ":") ∈ closedSymbols := by decide
      have hback := Spells.symbol hcolon (.blank ((htype.spells _ hends).append hdots))
      have hcolon : EndsWord (":".toList ++ ' ' :: (parameter.type.declared.toList ++
          (if parameter.isVariadic then "..." else "").toList) ++ tail) :=
        .of_cons (by decide +kernel)
      have hspells := h.spells hcolon hback
      rw [declaration_eq_unrepeated]
      simpa using hspells
    · have hread := @reads_readAfterNames scope position first second? _ _ _ htype
        (h.name_eq.trans_ne hwritten) parameter.isVariadic hafter
      rw [h.name_eq, h.label?_eq] at hread
      have hnames := (reads_read_iff_of_names h.nameInLine_first.isName fun second hsecond ↦
        (h.nameInLine_second second hsecond).isName).mpr hread
      rw [List.cons_append, List.append_assoc, List.cons_append, List.append_assoc]
      exact hnames
    · have hcolon : Nests (· ≠ .curly) opened [inLine .punctuation ":"] opened :=
        .of_text (by decide)
      refine h.nests (hcolon.append ((htype.nests opened).append ?_))
      cases parameter.isVariadic
      · exact .nil
      · exact .of_text (by decide)
  begins := ⟨first, _, rfl, h.nameInLine_first.is_mark (by decide)⟩

end Headed

/-- A parameter with names as such and a type that is recovered is recovered itself. -/
theorem exists_recovered {parameter : Parameter} (hname : Nameable parameter.name)
    (hwritten : parameter.name ≠ wildcard) (hlabel : ∀ label ∈ parameter.label?, Nameable label)
    (htype : ∃ item, Recovers SwiftType.read EndsType parameter.type.declared parameter.type item) :
    ∃ tokens, parameter.Recovered tokens := by
  obtain ⟨item, htype⟩ := htype
  obtain ⟨first, second?, hheaded⟩ := exists_headed hname hlabel
  exact ⟨_, hheaded.recovered hwritten htype⟩

section Keeps

variable {whole : List Token}
  (hspelled : ∀ token ∈ whole, Spelled token.kind token.text.toList) (htame : Tame whole)
include hspelled htame

theorem keeps_readAfterNames {position : Nat} {first : Token} {second? : Option Token}
    (scope : Scope) (tokens : List Token) : Keeps whole
      (fun parameter ↦ Nameable first.text → (∀ second ∈ second?, Nameable second.text) →
        ∃ tokens, parameter.Recovered tokens)
      (readAfterNames position first second?) scope tokens := by
  have hsuffix := leavesSuffix_receding
  refine .past (hsuffix.expect _ _) fun _ mid ↦
    .bind (SwiftType.keeps_read hspelled htame scope mid) fun type mid ↦
      .past (hsuffix.accept _) fun isVariadic mid ↦ .past (hsuffix.accept _) fun _ mid ↦
        .optionally (fun _ ↦ .of_leavesSuffix (hsuffix.collectUntil _)) fun _ ↦ .pure ?_
  -- The name is written or invented from the position. The label is written or the wildcard.
  intro _ htype hfirst hsecond
  refine exists_recovered ?_ ?_ ?_ htype
  · dsimp only
    split
    · rcases second? with _ | second
      · exact hfirst
      · exact hsecond second rfl
    · exact nameable_positional position
  · dsimp only
    split
    · assumption
    · exact invented_ne_wildcard position
  · have hwildcard : Nameable wildcard := .inl (by decide +kernel)
    rintro label hlabel
    dsimp only at hlabel
    split at hlabel
    · obtain ⟨_, -, rfl⟩ := Option.map_eq_some_iff.mp hlabel
      exact hfirst
    · rcases second? with _ | second
      · obtain rfl := Option.some.inj hlabel
        exact hwildcard
      · obtain rfl := Option.some.inj hlabel
        exact hfirst

theorem keeps_read {position : Nat} (scope : Scope) (tokens : List Token) :
    Keeps whole (fun parameter ↦ ∃ tokens, parameter.Recovered tokens) (Parameter.read position)
      scope tokens := by
  refine .bind (.expectName hspelled) fun first mid ↦ .ahead_bind
    (.optionally (.skip_name hspelled rfl) fun back ↦ ?_)
  refine (keeps_readAfterNames hspelled htame scope back).mono fun parameter h hsecond hfirst ↦ ?_
  refine h hfirst fun second hsome ↦ ?_
  obtain ⟨-, hsecond⟩ := hsecond (Option.isSome_of_mem hsome)
  exact hsecond second hsome

end Keeps

/-! ## Parameter clauses -/

/-- The comma behind a parameter tells whether its turn is the last. -/
theorem Recovered.reads_clauseTurn_iff {parameter : Parameter} {item after rest : List Token}
    (h : parameter.Recovered item) (hafter : EndsElement after) {opener : Token} {number : Nat}
    {scope : Scope} {turn : Turn Parameter} :
    Reads (clauseTurn opener number) scope (item ++ after) turn rest ↔
      Reads (do
        if ← accept "," then return .more parameter.unrepeated
        else return .last parameter.unrepeated) scope after turn rest := by
  have hread := (h.recovers (number + 1)).reads scope after hafter
  obtain ⟨first, back, rfl, hfirst⟩ := h.begins
  rw [List.cons_append] at hread ⊢
  rw [clauseTurn, reads_ahead_bind_iff, stands_singleton_cons, hfirst, if_neg Bool.false_ne_true,
    List.isEmpty_cons, if_neg Bool.false_ne_true]
  exact hread.bind_iff

/-- Items with commas between them. -/
def listed : List (List Token) → List Token
  | [] => []
  | item :: items => item ++ afterMarks comma items

private theorem reads_clauseTurns {parameters : List Parameter} {items : List (List Token)}
    (h : List.Forall₂ Recovered parameters items) (opener : Token) (number : Nat) (scope : Scope)
    (back : List Token) :
    Reads (repeatFrom (clauseTurn opener) number) scope
      (listed items ++ inLine .punctuation ")" :: back) (parameters.map unrepeated)
      (inLine .punctuation ")" :: back) := by
  induction h generalizing number with
  | nil =>
    exact .repeatFrom_stop (reads_ahead_bind_iff.mpr .pure)
  | @cons parameter item parameters items hfirst hothers ih =>
    cases hothers with
    | nil =>
      have hends : EndsElement (inLine .punctuation ")" :: back) := ⟨")", by decide, back, rfl⟩
      rw [listed, afterMarks, List.flatMap_nil, List.append_nil]
      refine .repeatFrom_last ((hfirst.reads_clauseTurn_iff hends).mpr ?_)
      exact (reads_accept_bind_iff_of_not_stands rfl).mpr .pure
    | @cons next item' parameters items hnext hothers =>
      have hsplit : listed (item :: item' :: items) ++ inLine .punctuation ")" :: back =
          item ++ comma :: (listed (item' :: items) ++ inLine .punctuation ")" :: back) := by
        simp [listed, afterMarks]
      have hends : EndsElement
          (comma :: (listed (item' :: items) ++ inLine .punctuation ")" :: back)) :=
        ⟨",", by decide, _, rfl⟩
      rw [hsplit]
      refine .repeatFrom_more ((hfirst.reads_clauseTurn_iff hends).mpr ?_) ?_ (ih (number + 1))
      · exact (reads_accept_bind_iff_of_is rfl).mpr .pure
      · simp only [List.length_append, List.length_cons]
        omega

private theorem spells_listed {parameters : List Parameter} {items : List (List Token)}
    (h : List.Forall₂ Recovered parameters items) {tail : List Char} (htail : EndsWord tail) :
    Spells tail (String.intercalate ", " (parameters.map declaration)).toList (listed items) := by
  cases h with
  | nil => exact .nil
  | cons hfirst hothers =>
    refine .listed separates_comma (hfirst.recovers 1).spells ?_ htail
    exact List.forall₂_map_left_iff.mpr (hothers.imp fun _ _ h ↦ (h.recovers 1).spells)

private theorem nests_listed {parameters : List Parameter} {items : List (List Token)}
    (h : List.Forall₂ Recovered parameters items) (opened : List Bracket) :
    Nests (· ≠ .curly) opened (listed items) opened := by
  cases h with
  | nil => exact .nil
  | cons hfirst hothers =>
    refine ((hfirst.recovers 1).nests opened).append ?_
    have hcomma : Nests (· ≠ .curly) opened [comma] opened := .of_text (by decide)
    induction hothers with
    | nil => exact .nil
    | cons hnext _ ih => exact hcomma.append (((hnext.recovers 1).nests opened).append ih)

/-- A parameter clause as a signature says it. -/
def clauseText (parameters : List Parameter) : String :=
  "(" ++ String.intercalate ", " (parameters.map declaration) ++ ")"

theorem endsWord_clauseText (parameters : List Parameter) (tail : List Char) :
    EndsWord ((clauseText parameters).toList ++ tail) := by
  rw [clauseText, String.append_assoc, String.toList_append]
  exact .of_cons (by decide +kernel)

/-- A parameter clause is recovered with its parentheses, whatever follows. -/
theorem recovers_readClause {parameters : List Parameter} {items : List (List Token)}
    (h : List.Forall₂ Recovered parameters items) :
    Recovers readClause (fun _ ↦ True) (clauseText parameters) (parameters.map unrepeated)
      (inLine .punctuation "(" :: (listed items ++ [inLine .punctuation ")"])) where
  spells tail htail := by
    have hcloser : Spells tail ")".toList [inLine .punctuation ")"] := .lastSymbol (by decide)
    have hends : EndsWord (")".toList ++ tail) := .of_cons (by decide +kernel)
    have hopener : (Kind.punctuation, "(") ∈ closedSymbols := by decide
    rw [clauseText, String.toList_append, String.toList_append, List.append_assoc]
    exact .symbol hopener ((spells_listed h hends).append hcloser)
  reads scope after _ := by
    rw [readClause_eq, List.cons_append, List.append_assoc]
    refine (reads_expect_bind_iff_of_is rfl).mpr ?_
    have hturns := reads_clauseTurns h (inLine .punctuation "(") 0 scope after
    refine hturns.bind_iff.mpr (reads_ahead_bind_iff.mpr ?_)
    exact reads_skip_bind_iff.mpr .pure
  nests opened := by
    have hopener : Nests (· ≠ .curly) opened [inLine .punctuation "("] (.round :: opened) :=
      .of_opener .round (by decide +kernel) rfl (by decide)
    have hcloser : Nests (· ≠ .curly) (.round :: opened) [inLine .punctuation ")"] opened :=
      .of_closer .round (by decide +kernel) rfl (by decide)
    exact hopener.append ((nests_listed h _).append hcloser)

theorem keeps_readClause {whole : List Token}
    (hspelled : ∀ token ∈ whole, Spelled token.kind token.text.toList) (htame : Tame whole)
    (scope : Scope) (tokens : List Token) : Keeps whole
      (fun parameters ↦ ∀ parameter ∈ parameters, ∃ tokens, parameter.Recovered tokens)
      readClause scope tokens := by
  have hsuffix := leavesSuffix_receding
  have hturn (opener : Token) (number : Nat) (scope : Scope) (tokens : List Token) :
      Keeps whole (Turn.All fun parameter ↦ ∃ tokens, parameter.Recovered tokens)
        (clauseTurn opener number) scope tokens := by
    refine .ahead_bind (.ite (fun _ ↦ .pure trivial) fun _ ↦ .ite (fun _ ↦ .fail_bind) fun _ ↦ ?_)
    refine .bind (keeps_read hspelled htame scope tokens) fun parameter mid ↦
      .past (hsuffix.accept _) fun _ _ ↦ .ite (fun _ ↦ .pure ?_) fun _ ↦ .pure ?_
    all_goals exact fun hrecovered ↦ hrecovered
  rw [readClause_eq]
  refine .past (hsuffix.expect _ _) fun opener mid ↦ .bind (.repeatFrom (hturn opener))
    fun parameters mid ↦ .ahead_bind (.ite (fun _ ↦ ?_) fun _ ↦ .fail_bind)
  exact .past hsuffix.skip fun _ _ ↦ .pure fun hrecovered ↦ hrecovered

end Parameter

end TestDouble
