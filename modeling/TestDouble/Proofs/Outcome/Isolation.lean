import TestDouble.Outcome
import TestDouble.Proofs.Mock.Unlined
import TestDouble.Proofs.Protocol.Joined

/-!
# Outcomes do not depend on neighbours

A text may declare many protocols. What becomes of one of them depends on its own declaration and on
those that its inheritance clauses lead to: the others can come in any order, can be malformed, or
can be missing. Only the lines in faults tell where a declaration stands.
-/

namespace TestDouble

variable {known known' : Catalogue} {texts texts' : List String}

/-! ## Catalogues -/

namespace Catalogue

/-- The catalogue with the protocols of texts that declare one protocol each. -/
def addTexts (known : Catalogue) (texts : List String) : Catalogue :=
  (texts.filterMap fun text ↦ (Protocol.ofText text).toOption).foldl add known

theorem AgreeAt.add {name : String} {protocol protocol' : Protocol}
    (h : known.AgreeAt known' name) (hprotocol : protocol.unlined = protocol'.unlined) :
    (known.add protocol).AgreeAt (known'.add protocol') name := by
  rw [AgreeAt, Catalogue.add, Catalogue.add, List.lookup_cons, List.lookup_cons,
    ← Protocol.name_eq hprotocol]
  cases name == protocol.name with
  | true => exact congrArg some hprotocol
  | false => exact h

/-- Catalogues agree if they come about from protocols that differ in their lines only. -/
theorem AgreeAt.foldl_add {name : String} {protocols protocols' : List Protocol}
    (hprotocols : List.Forall₂ (fun p p' ↦ p.unlined = p'.unlined) protocols protocols')
    (h : known.AgreeAt known' name) :
    (protocols.foldl Catalogue.add known).AgreeAt (protocols'.foldl Catalogue.add known') name := by
  induction hprotocols generalizing known known' with
  | nil => exact h
  | cons hprotocol _ ih => exact ih (h.add hprotocol)

theorem lookup_foldl_add_of_forall_ne {name : String} {protocols : List Protocol}
    (h : ∀ protocol ∈ protocols, protocol.name ≠ name) :
    (protocols.foldl add known).lookup name = known.lookup name := by
  induction protocols generalizing known with
  | nil => rfl
  | cons protocol protocols ih =>
    obtain ⟨hne, hprotocols⟩ := List.forall_mem_cons.mp h
    rw [List.foldl_cons, ih hprotocols, add, List.lookup_cons, beq_false_of_ne hne.symm]

private theorem lookup_foldl_add_of_mem {protocols : List Protocol} {protocol : Protocol}
    (h : protocol ∈ protocols) (hunique : ∀ p ∈ protocols, p.name = protocol.name → p = protocol) :
    (protocols.foldl add known).lookup protocol.name = some protocol := by
  induction protocols generalizing known with
  | nil => cases h
  | cons first protocols ih =>
    have hothers := (List.forall_mem_cons.mp hunique).2
    by_cases hmem : protocol ∈ protocols
    · exact ih hmem hothers
    · obtain rfl := (List.mem_cons.mp h).resolve_right hmem
      rw [List.foldl_cons, lookup_foldl_add_of_forall_ne, add, List.lookup_cons, beq_self_eq_true]
      intro p hp hname
      exact hmem (hothers p hp hname ▸ hp)

end Catalogue

private theorem exists_getElem?_of_forall₂ {α β : Type} {R : α → β → Prop} {as : List α}
    {bs : List β} (h : List.Forall₂ R as bs) {i : Nat} {a : α} (ha : as[i]? = some a) :
    ∃ b, bs[i]? = some b ∧ R a b := by
  induction h generalizing i with
  | nil => simp at ha
  | cons hhead _ ih =>
    cases i with
    | zero =>
      obtain rfl := Option.some.inj ha
      exact ⟨_, rfl, hhead⟩
    | succ i => exact ih ha

/-! ## Texts -/

namespace Excerpt

/-- The text is the declaration of a protocol of that name and nothing else. -/
def Declares (text name : String) : Prop :=
  ∃ excerpt, DelimitedText text excerpt ∧ excerpt.name = name

/-- The text is that of a protocol of that name, but may end with a brace that closes less than its
body. -/
def Fills (text name : String) : Prop :=
  ∃ tokens excerpt, Tokens.scan text = .ok tokens ∧ Whole tokens excerpt ∧ excerpt.name = name

instance (tokens : Tokens) (excerpt : Excerpt) : Decidable (Whole tokens excerpt) :=
  decidable_of_iff (locate tokens = [excerpt] ∧ excerpt.items = tokens.items ∧
      tokens.items.getLast?.any (·.is "\x7d") = true)
    ⟨fun ⟨hlocated, hitems, hbrace⟩ ↦ ⟨hlocated, hitems, (Option.any_eq_true ..).mp hbrace⟩,
      fun ⟨hlocated, hitems, hbrace⟩ ↦ ⟨hlocated, hitems, (Option.any_eq_true ..).mpr hbrace⟩⟩

theorem fills_iff {text name : String} :
    Fills text name ↔ ∃ tokens ∈ (Tokens.scan text).toOption, ∃ excerpt ∈ (locate tokens).head?,
      Whole tokens excerpt ∧ excerpt.name = name := by
  constructor
  · rintro ⟨tokens, excerpt, hscan, hwhole, hname⟩
    exact ⟨tokens, by rw [hscan]; rfl, excerpt, by rw [hwhole.located]; rfl, hwhole, hname⟩
  · rintro ⟨tokens, hscan, excerpt, -, hwhole, hname⟩
    refine ⟨tokens, excerpt, ?_, hwhole, hname⟩
    cases h : Tokens.scan text with
    | error => simp [h, Except.toOption] at hscan
    | ok => simpa [h, Except.toOption] using hscan

instance (text name : String) : Decidable (Fills text name) :=
  decidable_of_iff _ fills_iff.symm

theorem declares_iff {text name : String} : Declares text name ↔ Fills text name ∧
    ∀ tokens ∈ (Tokens.scan text).toOption, (fromKeyword tokens.items).countP (·.is "\x7b")
      = (fromKeyword tokens.items).countP (·.is "\x7d") := by
  constructor
  · rintro ⟨excerpt, ⟨tokens, hscan, hwhole, hbalanced⟩, hname⟩
    refine ⟨⟨tokens, excerpt, hscan, hwhole, hname⟩, ?_⟩
    rw [hscan]
    rintro _ ⟨⟩
    exact hbalanced
  · rintro ⟨⟨tokens, excerpt, hscan, hwhole, hname⟩, hbalanced⟩
    exact ⟨excerpt, ⟨tokens, hscan, hwhole, hbalanced tokens (by rw [hscan]; rfl)⟩, hname⟩

instance (text name : String) : Decidable (Declares text name) :=
  decidable_of_iff _ declares_iff.symm

/-- Texts that declare one protocol each, no two of the same name. -/
def Distinct (texts : List String) : Prop :=
  ∃ names, List.Forall₂ Declares texts names ∧ names.Nodup

theorem DelimitedText.protocol_ofText_eq {text : String} {excerpt : Excerpt}
    (h : DelimitedText text excerpt) : Protocol.ofText text = excerpt.read.result := by
  rw [Protocol.ofText, h.ofText_eq]
  rfl

/-- A text declares the protocol that is read from it. -/
theorem Declares.of_ofText {text name : String} {protocol : Protocol} (h : Declares text name)
    (hread : Protocol.ofText text = .ok protocol) : Declares text protocol.name := by
  obtain ⟨excerpt, hdelimited, -⟩ := h
  rw [hdelimited.protocol_ofText_eq] at hread
  exact ⟨excerpt, hdelimited, (hdelimited.name_eq hread).symm⟩

theorem Declares.unique {text name name' : String} (h : Declares text name)
    (h' : Declares text name') : name = name' := by
  obtain ⟨excerpt, hdelimited, rfl⟩ := h
  obtain ⟨excerpt', hdelimited', rfl⟩ := h'
  rw [hdelimited.unique hdelimited']

namespace Distinct

theorem declares (h : Distinct texts) {text : String} (htext : text ∈ texts) :
    ∃ name, Declares text name := by
  obtain ⟨names, hnames, -⟩ := h
  obtain ⟨i, hi⟩ := List.getElem?_of_mem htext
  obtain ⟨name, -, hname⟩ := exists_getElem?_of_forall₂ hnames hi
  exact ⟨name, hname⟩

theorem exists_excerpts (h : Distinct texts) :
    ∃ excerpts, List.Forall₂ DelimitedText texts excerpts := by
  obtain ⟨names, hnames, -⟩ := h
  induction hnames with
  | nil => exact ⟨[], .nil⟩
  | cons hname _ ih =>
    obtain ⟨excerpt, hexcerpt, -⟩ := hname
    obtain ⟨excerpts, hexcerpts⟩ := ih
    exact ⟨excerpt :: excerpts, .cons hexcerpt hexcerpts⟩

theorem eq_of_declares (h : Distinct texts) {text text' name : String} (htext : text ∈ texts)
    (htext' : text' ∈ texts) (hname : Declares text name) (hname' : Declares text' name) :
    text = text' := by
  obtain ⟨names, hnames, hnodup⟩ := h
  obtain ⟨i, hi⟩ := List.getElem?_of_mem htext
  obtain ⟨j, hj⟩ := List.getElem?_of_mem htext'
  obtain ⟨name₁, hi', hname₁⟩ := exists_getElem?_of_forall₂ hnames hi
  obtain ⟨name₂, hj', hname₂⟩ := exists_getElem?_of_forall₂ hnames hj
  obtain rfl := hname₁.unique hname
  obtain rfl := hname₂.unique hname'
  obtain rfl : i = j := (List.getElem?_inj (List.getElem?_eq_some_iff.mp hi').1 hnodup).mp
    (hi'.trans hj'.symm)
  exact Option.some.inj (hi.symm.trans hj)

/-- A protocol that is read from one of the texts is declared by it. -/
theorem exists_text (h : Distinct texts) {protocol : Protocol}
    (hmem : protocol ∈ texts.filterMap fun text ↦ (Protocol.ofText text).toOption) :
    ∃ text ∈ texts, Declares text protocol.name ∧ Protocol.ofText text = .ok protocol := by
  obtain ⟨text, htext, hread⟩ := List.mem_filterMap.mp hmem
  rcases hprotocol : Protocol.ofText text with fault | protocol'
  · rw [hprotocol] at hread
    cases hread
  · rw [hprotocol] at hread
    obtain rfl := Option.some.inj hread
    obtain ⟨name, hname⟩ := h.declares htext
    exact ⟨text, htext, hname.of_ofText hprotocol, hprotocol⟩

/-- What is known under a name is what the text says that declares it. -/
theorem lookup_addTexts (h : Distinct texts) {text name : String} (htext : text ∈ texts)
    (hname : Declares text name) :
    (known.addTexts texts).lookup name =
      (Protocol.ofText text).toOption.or (known.lookup name) := by
  have hunique {protocol : Protocol}
      (hmem : protocol ∈ texts.filterMap fun text ↦ (Protocol.ofText text).toOption)
      (hsame : protocol.name = name) : Protocol.ofText text = .ok protocol := by
    obtain ⟨text', htext', hname', hread⟩ := h.exists_text hmem
    rwa [h.eq_of_declares htext htext' hname (hsame ▸ hname')]
  rcases hread : Protocol.ofText text with fault | protocol
  · refine Catalogue.lookup_foldl_add_of_forall_ne fun protocol hmem hsame ↦ ?_
    cases hread.symm.trans (hunique hmem hsame)
  · obtain rfl := (hname.of_ofText hread).unique hname
    refine Catalogue.lookup_foldl_add_of_mem ?_ fun protocol' hmem hsame ↦ ?_
    · exact List.mem_filterMap.mpr ⟨text, htext, by rw [hread]; rfl⟩
    · exact Except.ok.inj ((hunique hmem hsame).symm.trans hread)

theorem lookup_addTexts_of_forall_not {name : String} (h : Distinct texts)
    (hname : ∀ text ∈ texts, ¬ Declares text name) :
    (known.addTexts texts).lookup name = known.lookup name := by
  refine Catalogue.lookup_foldl_add_of_forall_ne fun protocol hmem hsame ↦ ?_
  obtain ⟨text, htext, hdeclares, -⟩ := h.exists_text hmem
  exact hname text htext (hsame ▸ hdeclares)

/-- Texts that have the same declaration of a name, or none, agree on what it stands for. -/
theorem agreeAt (h : Distinct texts) (h' : Distinct texts') {name : String}
    (hsame : ∀ text, Declares text name → (text ∈ texts ↔ text ∈ texts')) :
    (known.addTexts texts).AgreeAt (known.addTexts texts') name := by
  by_cases hdeclared : ∃ text ∈ texts, Declares text name
  · obtain ⟨text, htext, hname⟩ := hdeclared
    rw [Catalogue.AgreeAt, h.lookup_addTexts htext hname,
      h'.lookup_addTexts ((hsame text hname).mp htext) hname]
  · have hnone : ∀ text ∈ texts, ¬ Declares text name := fun text htext hname ↦
      hdeclared ⟨text, htext, hname⟩
    rw [Catalogue.AgreeAt, h.lookup_addTexts_of_forall_not hnone,
      h'.lookup_addTexts_of_forall_not fun text htext hname ↦
        hnone text ((hsame text hname).mpr htext) hname]

end Distinct

end Excerpt

/-! ## Outcomes -/

theorem ResultAlike.result_cases {α α' : Type} {lines : Nat → Nat → Prop} {V : α → α' → Prop}
    {result : Except Fault α} {result' : Except Fault α'} (h : ResultAlike lines V result result') :
    (∃ fault fault', result = .error fault ∧ result' = .error fault' ∧ fault.Alike lines fault') ∨
      ∃ a a', result = .ok a ∧ result' = .ok a' ∧ V a a' := by
  cases h with
  | error hfault => exact .inl ⟨_, _, rfl, rfl, hfault⟩
  | ok hvalue => exact .inr ⟨_, _, rfl, rfl, hvalue⟩

theorem Fault.Alike.within {lines : Nat → Nat → Prop} {fault fault' : Fault}
    (h : fault.Alike lines fault') (protocol? : Option String) :
    (fault.within protocol?).Alike lines (fault'.within protocol?) := by
  cases h with
  | intro cause place hline =>
    simp only [Fault.within]
    split <;> exact .intro _ _ hline

namespace Outcome

/-- The outcome without the line of its fault. -/
def unlined : Outcome → Outcome
  | refused source protocol className fault =>
    refused source protocol className { fault with line? := none }
  | unreadable source fault => unreadable source { fault with line? := none }
  | outcome => outcome

variable {style : Style} {source : String} {excerpt excerpt' : Excerpt}

@[simp]
theorem protocol?_unlined (outcome : Outcome) : outcome.unlined.protocol? = outcome.protocol? := by
  cases outcome <;> rfl

private theorem unlined_refused_eq {lines : Nat → Nat → Prop} {fault fault' : Fault}
    (h : fault.Alike lines fault') (source protocol className : String) :
    (refused source protocol className fault).unlined =
      (refused source protocol className fault').unlined := by
  cases h
  rfl

/-- A moved declaration has the same outcome if the names it reaches stand for the same. -/
theorem unlined_ofReading_eq (style : Style) (source : String) (hmoved : excerpt.Moved excerpt')
    (hagree : ∀ protocol, excerpt.read.result = .ok protocol →
      ∀ name, known.Reaches protocol name → known.AgreeAt known' name) :
    (ofReading style known source excerpt excerpt.read.result).unlined =
      (ofReading style known' source excerpt' excerpt'.read.result).unlined := by
  have hname : excerpt.name = excerpt'.name := by cases hmoved; rfl
  have hread := hmoved.read
  generalize hresult : excerpt.read.result = result at hread
  generalize excerpt'.read.result = result' at hread
  cases hread with
  | error hfault =>
    rw [ofReading, ofReading, hname]
    exact unlined_refused_eq (hfault.within _) ..
  | @ok protocol protocol' hprotocol =>
    have hsame := Protocol.name_eq hprotocol.unlined_eq
    have hmerged := Protocol.unlined_withInherited_eq hprotocol.unlined_eq (hagree protocol hresult)
    have hmock := Mock.ofProtocol_congr style hmerged
    rw [ofReading, ofReading, ← hsame]
    rcases hmade : Mock.ofProtocol style known protocol with fault | mock <;>
      rcases hmade' : Mock.ofProtocol style known' protocol' with fault' | mock' <;>
      rw [hmade, hmade'] at hmock
    · obtain rfl := Except.error.inj hmock
      rfl
    · cases hmock
    · cases hmock
    · have hmock := Except.ok.inj hmock
      have hprint : mock.print style = mock'.print style := by
        rw [← Mock.print_unlined, hmock, Mock.print_unlined]
      have hclass : mock.name = mock'.name := congrArg (·.name) hmock
      simp only [hprint, hclass]

/-- The outcome for a text is that of the protocol it declares. -/
theorem protocol?_ofReading {text : String} (hdelimited : Excerpt.DelimitedText text excerpt) :
    (ofReading style known source excerpt excerpt.read.result).protocol? = some excerpt.name := by
  rcases hread : excerpt.read.result with fault | protocol
  · rfl
  · rw [ofReading, ← hdelimited.name_eq hread]
    split <;> rfl

/-- What becomes of a text among others, up to lines, is what becomes of it alone where the
protocols of all texts are known. -/
theorem forall₂_ofSource_joined (style : Style) (known : Catalogue) (source : String)
    {excerpts : List Excerpt} (hexcerpts : List.Forall₂ Excerpt.DelimitedText texts excerpts) :
    List.Forall₂ (fun excerpt outcome ↦ ∃ located excerpt', excerpt.Moved excerpt' ∧
        (∀ name, (known.addTexts texts).AgreeAt (addReadable known located) name) ∧
        outcome = ofReading style (addReadable known located) source excerpt' excerpt'.read.result)
      excerpts (ofSource style known ⟨source, Excerpt.joined texts⟩) := by
  obtain ⟨located, hlocated, hmoved⟩ := Excerpt.exists_ofText_joined hexcerpts
  have hagree (name : String) :
      (known.addTexts texts).AgreeAt (addReadable known located) name := by
    have htexts : texts.filterMap (fun text ↦ (Protocol.ofText text).toOption) =
        excerpts.filterMap fun excerpt ↦ excerpt.read.result.toOption := by
      refine forall₂_eq_iff.mp (List.rel_filterMap (fun text excerpt htext ↦ ?_) hexcerpts)
      rw [htext.protocol_ofText_eq]
      cases excerpt.read.result.toOption with
      | none => exact .none
      | some protocol => exact .some rfl
    rw [Catalogue.addTexts, htexts]
    refine .foldl_add (List.rel_filterMap (fun excerpt excerpt' h ↦ ?_) hmoved) rfl
    rcases h.read.result_cases with ⟨_, _, hread, hread', -⟩ | ⟨_, _, hread, hread', hprotocol⟩
    · rw [hread, hread']
      exact .none
    · rw [hread, hread']
      exact .some hprotocol.unlined_eq
  rw [ofSource, hlocated]
  simp only [ofExcerpts, List.forall₂_map_right_iff]
  exact hmoved.imp fun excerpt excerpt' h ↦ ⟨located, excerpt', h, hagree, rfl⟩

/-- What becomes of a text among others depends on the texts that declare what it reaches. Neither
the order of the texts nor any other of them is of influence, but for the lines in faults. -/
theorem ofSource_isolated (style : Style) (known : Catalogue) (source : String)
    {text : String} {i j : Nat} (htexts : Excerpt.Distinct texts)
    (htexts' : Excerpt.Distinct texts') (hi : texts[i]? = some text) (hj : texts'[j]? = some text)
    (hreached : ∀ protocol name, Protocol.ofText text = .ok protocol →
      (known.addTexts texts).Reaches protocol name →
      ∀ declaring, Excerpt.Declares declaring name → (declaring ∈ texts ↔ declaring ∈ texts')) :
    ∃ outcome outcome' name,
      (ofSource style known ⟨source, Excerpt.joined texts⟩)[i]? = some outcome ∧
      (ofSource style known ⟨source, Excerpt.joined texts'⟩)[j]? = some outcome' ∧
      Excerpt.Declares text name ∧ outcome.protocol? = some name ∧
      outcome.unlined = outcome'.unlined := by
  obtain ⟨excerpts, hexcerpts⟩ := htexts.exists_excerpts
  obtain ⟨excerpts', hexcerpts'⟩ := htexts'.exists_excerpts
  obtain ⟨excerpt, hexcerpt, hdelimited⟩ := exists_getElem?_of_forall₂ hexcerpts hi
  obtain ⟨excerpt', hexcerpt', hdelimited'⟩ := exists_getElem?_of_forall₂ hexcerpts' hj
  obtain rfl := hdelimited.unique hdelimited'
  obtain ⟨outcome, houtcome, located, moved, hmoved, hagree, rfl⟩ :=
    exists_getElem?_of_forall₂ (forall₂_ofSource_joined style known source hexcerpts) hexcerpt
  obtain ⟨outcome', houtcome', located', moved', hmoved', hagree', rfl⟩ :=
    exists_getElem?_of_forall₂ (forall₂_ofSource_joined style known source hexcerpts') hexcerpt'
  -- Each outcome is, up to lines, that of the text alone with the protocols that are known there.
  have hown := unlined_ofReading_eq style source hmoved fun _ _ name _ ↦ hagree name
  refine ⟨_, _, excerpt.name, houtcome, houtcome', ⟨excerpt, hdelimited, rfl⟩, ?_, ?_⟩
  · rw [← protocol?_unlined, ← hown, protocol?_unlined, protocol?_ofReading hdelimited]
  · rw [← hown]
    refine unlined_ofReading_eq style source hmoved' fun protocol hread name hname ↦ ?_
    rw [← hdelimited.protocol_ofText_eq] at hread
    exact (htexts.agreeAt htexts' (hreached protocol name hread hname)).trans (hagree' name)

/-- A malformed neighbour, and one that comes first instead of last, make no difference. -/
theorem ofSource_isolated_reordered :
    ∃ outcome outcome' name,
      (ofSource .standard .empty ⟨"Sources.swift", Excerpt.joined
        ["protocol P \x7b func \x7d", "protocol Q: R \x7b \x7d", "protocol R \x7b \x7d"]⟩)[1]?
          = some outcome ∧
      (ofSource .standard .empty ⟨"Sources.swift", Excerpt.joined
        ["protocol R \x7b \x7d", "protocol Q: R \x7b \x7d"]⟩)[1]? = some outcome' ∧
      Excerpt.Declares "protocol Q: R \x7b \x7d" name ∧ outcome.protocol? = some name ∧
      outcome.unlined = outcome'.unlined := by
  have hp : Excerpt.Declares "protocol P \x7b func \x7d" "P" := by decide +kernel
  have hq : Excerpt.Declares "protocol Q: R \x7b \x7d" "Q" := by decide +kernel
  have hr : Excerpt.Declares "protocol R \x7b \x7d" "R" := by decide +kernel
  refine ofSource_isolated .standard .empty "Sources.swift"
    ⟨["P", "Q", "R"], .cons hp (.cons hq (.cons hr .nil)), by decide⟩
    ⟨["R", "Q"], .cons hr (.cons hq .nil), by decide⟩ rfl rfl ?_
  intro protocol name hread hname
  have hown : (Protocol.ofText "protocol Q: R \x7b \x7d").toOption.map (·.inherited)
      = some ["R"] := by
    decide +kernel
  have hparent : ((Catalogue.empty.addTexts ["protocol P \x7b func \x7d", "protocol Q: R \x7b \x7d",
      "protocol R \x7b \x7d"]).lookup "R").map (·.inherited) = some [] := by decide +kernel
  -- The clause of `R` is empty, so no other name is reached.
  have hreached : name = "R" := by
    induction hname with
    | mentioned hmem =>
      rw [hread] at hown
      have hinherited : protocol.inherited = ["R"] := Option.some.inj hown
      rwa [hinherited, List.mem_singleton] at hmem
    | @refined _ _ parent _ hknown hmem ih =>
      rw [← ih, hknown] at hparent
      have hinherited : parent.inherited = [] := Option.some.inj hparent
      rw [hinherited] at hmem
      cases hmem
  subst hreached
  intro declaring hdeclares
  have hother {text other : String} (hother : Excerpt.Declares other text) (hne : text ≠ "R") :
      declaring ≠ other := by
    rintro rfl
    exact hne (hother.unique hdeclares)
  simp [hother hp (by decide), hother hq (by decide)]

/-- It is not enough that a declaration takes all of its text. Where the last brace does not close
the body, the declaration takes in what follows as well. -/
theorem not_isolated_of_fills : ¬ ∀ (style : Style) (known : Catalogue) (source : String)
    (texts texts' names names' : List String) (text : String) (i j : Nat),
    List.Forall₂ Excerpt.Fills texts names → names.Nodup →
    List.Forall₂ Excerpt.Fills texts' names' → names'.Nodup →
    texts[i]? = some text → texts'[j]? = some text →
    (∀ protocol name, Protocol.ofText text = .ok protocol →
      (known.addTexts texts).Reaches protocol name →
      ∀ declaring, Excerpt.Fills declaring name → (declaring ∈ texts ↔ declaring ∈ texts')) →
    ∃ outcome outcome', (ofSource style known ⟨source, Excerpt.joined texts⟩)[i]? = some outcome ∧
      (ofSource style known ⟨source, Excerpt.joined texts'⟩)[j]? = some outcome' ∧
      outcome.unlined = outcome'.unlined := by
  intro h
  have hp : Excerpt.Fills "protocol P \x7b \x7b \x7d" "P" := by decide +kernel
  have hq : Excerpt.Fills "protocol Q \x7b \x7d" "Q" := by decide +kernel
  have hown : (Protocol.ofText "protocol Q \x7b \x7d").toOption.map (·.inherited) = some [] := by
    decide +kernel
  have hnone : (ofSource .standard .empty ⟨"Sources.swift",
      Excerpt.joined ["protocol P \x7b \x7b \x7d", "protocol Q \x7b \x7d"]⟩)[1]? = none := by
    decide +kernel
  obtain ⟨outcome, outcome', houtcome, -⟩ := h .standard .empty "Sources.swift"
    ["protocol P \x7b \x7b \x7d", "protocol Q \x7b \x7d"] ["protocol Q \x7b \x7d"] ["P", "Q"] ["Q"]
    "protocol Q \x7b \x7d" 1 0 (.cons hp (.cons hq .nil)) (by decide) (.cons hq .nil) (by decide)
    rfl rfl fun protocol name hread hname ↦ by
      rw [hread] at hown
      exact absurd hname (Catalogue.not_reaches (Option.some.inj hown))
  cases hnone.symm.trans houtcome

end Outcome

end TestDouble
