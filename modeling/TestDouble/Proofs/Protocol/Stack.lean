import TestDouble.Proofs.Protocol.Body

/-!
# Bodies below one another

Each text is read by itself up to the brace at the end, and with others below it up to what these
begin with. Line numbers are counted from the first text on, so the members of the others are those
that they have by themselves, further down.
-/

namespace TestDouble

open Reader Token

/-! ## Further down -/

/-- The method further down by a number of lines. -/
def Method.down (count : Nat) (method : Method) : Method :=
  { method with line? := method.line?.map (· + (count : Int)) }

/-- The property further down by a number of lines. -/
def Property.down (count : Nat) (property : Property) : Property :=
  { property with line? := property.line?.map (· + (count : Int)) }

/-- The member further down by a number of lines. -/
def Member.down (count : Nat) : Member → Member
  | .method m => .method (m.down count)
  | .property p => .property (p.down count)
  | .associatedType t => .associatedType t
  | .nothing => .nothing

/-- A line and the one that many lines below. -/
def Below (count line line' : Nat) : Prop :=
  line' = line + count

section Down

variable {count : Nat}

@[simp] theorem Method.down_zero (method : Method) : method.down 0 = method := by
  rw [down]
  simp

@[simp] theorem Property.down_zero (property : Property) : property.down 0 = property := by
  rw [down]
  simp

@[simp] theorem Member.down_zero (member : Member) : member.down 0 = member := by
  cases member with
  | method m => exact congrArg method m.down_zero
  | property p => exact congrArg property p.down_zero
  | associatedType | nothing => rfl

private theorem map_add_line (count count' : Nat) (line? : Option Int) :
    line?.map (· + ((count + count' : Nat) : Int)) =
      (line?.map (· + (count' : Int))).map (· + (count : Int)) := by
  rw [Option.map_map]
  refine Option.map_congr fun line _ ↦ ?_
  simp only [Function.comp_apply]
  omega

theorem Member.down_add (count count' : Nat) (member : Member) :
    member.down (count + count') = (member.down count').down count := by
  cases member with
  | method m =>
    simp only [down, Method.down, map_add_line]
  | property p =>
    simp only [down, Property.down, map_add_line]
  | associatedType | nothing => rfl

theorem LineAlike.eq_map {line? line?' : Option Int} (h : LineAlike (Below count) line? line?') :
    line?' = line?.map (· + (count : Int)) := by
  cases h with
  | unknown => rfl
  | known hline =>
    rw [hline]
    simp

theorem Method.Alike.eq_down {method method' : Method} (h : method.Alike (Below count) method') :
    method' = method.down count := by
  calc method' = { method'.unlined with line? := method'.line? } := rfl
    _ = { method.unlined with line? := method.line?.map (· + (count : Int)) } := by
      rw [h.line.eq_map, h.unlined_eq]
    _ = method.down count := rfl

theorem Property.Alike.eq_down {property property' : Property}
    (h : property.Alike (Below count) property') : property' = property.down count := by
  calc property' = { property'.unlined with line? := property'.line? } := rfl
    _ = { property.unlined with line? := property.line?.map (· + (count : Int)) } := by
      rw [h.line.eq_map, h.unlined_eq]
    _ = property.down count := rfl

theorem Member.Alike.eq_down {member member' : Member} (h : member.Alike (Below count) member') :
    member' = member.down count := by
  cases h with
  | method hmethod => exact congrArg Member.method hmethod.eq_down
  | property hproperty => exact congrArg Member.property hproperty.eq_down
  | associatedType => rfl
  | nothing => rfl

private theorem Member.eq_map_down {members members' : List Member}
    (h : List.Forall₂ (Member.Alike (Below count)) members members') :
    members' = members.map (down count) := by
  induction h with
  | nil => rfl
  | cons hmember _ ih => rw [List.map_cons, hmember.eq_down, ih]

@[simp] theorem Member.method?_down (count : Nat) (member : Member) :
    (member.down count).method? = member.method?.map (Method.down count) := by
  cases member <;> rfl

@[simp] theorem Member.property?_down (count : Nat) (member : Member) :
    (member.down count).property? = member.property?.map (Property.down count) := by
  cases member <;> rfl

private theorem Member.associatedType?_down (count : Nat) (member : Member) :
    (member.down count).associatedType? = member.associatedType?.map fun type ↦ type := by
  cases member <;> rfl

end Down

/-! ## One text below another -/

namespace Protocol

private theorem forall₂_shift (count : Nat) (tokens : List Token) :
    List.Forall₂ (Token.Alike (Below count)) tokens (tokens.map (shift count)) :=
  List.forall₂_map_right_iff.mpr (List.forall₂_same.mpr fun _ _ ↦ .intro _ _ _ rfl)

private theorem eq_map_shift {count : Nat} {tokens tokens' : List Token}
    (h : List.Forall₂ (Token.Alike (Below count)) tokens tokens') :
    tokens' = tokens.map (shift count) := by
  induction h with
  | nil => rfl
  | cons hfirst _ ih =>
    obtain ⟨kind, text, freshLine, hline⟩ := hfirst
    rw [List.map_cons, ih, hline]
    rfl

/-- A body that is read further down has its members further down. -/
theorem reads_body_down {line : Nat} {tokens rest : List Token} {members : List Member}
    (h : Reads (readBody "P" 1) (scopeAt line) tokens members rest) (count : Nat) :
    Reads (readBody "P" 1) (scopeAt (line + count)) (tokens.map (shift count))
      (members.map (Member.down count)) (rest.map (shift count)) := by
  have hscope : (scopeAt line).Alike (Below count) (scopeAt (line + count)) := ⟨rfl, rfl⟩
  have hline : Below count 1 (1 + count) := rfl
  obtain ⟨members', rest', hmembers, hread, hrest⟩ :=
    (readBody_alike "P" hline).exists_reads hscope (forall₂_shift count tokens) h
  rw [← Member.eq_map_down hmembers, ← eq_map_shift hrest]
  exact reads_readBody_of_line hread

/-- A part of a body is read with what follows it. -/
theorem Part.reads_append {text : String} {members others : List Member} {scope : Scope}
    {front tail rest : List Token} (h : Part text members front)
    (hspelled : ∀ token ∈ tail, Spelled token.kind token.text.toList)
    (hfresh : ∀ token ∈ tail.head?, token.freshLine = true)
    (hothers : Reads (readBody "P" 1) scope tail others rest) :
    Reads (readBody "P" 1) scope (front ++ tail) (members ++ others) rest := by
  obtain ⟨next, more, rfl, hresumes⟩ := resumes_of_reads_body hothers
  have hnext := hfresh next rfl
  let seam : Seam := ⟨braceAt (lineCount text + 2), next, more, Settles, rfl, rfl, rfl,
    hresumes.not_mem_sought (hspelled next List.mem_cons_self)⟩
  -- The brace is taken off and the other members put in its place, where a member can end.
  have hends : seam.EndsMember :=
    ⟨hresumes.endsMember hnext, hresumes.not_opener (hspelled next List.mem_cons_self)⟩
  have htold : SwiftType.Guarded seam := fun _ type htype ↦ htype type rfl
  have hfront : ∀ token ∈ front ++ [seam.brace], Spelled token.kind token.text.toList := by
    obtain ⟨finish, hscan⟩ := h.scan
    refine List.forall_mem_append.mpr ⟨spelled_of_mem hscan, List.forall_mem_singleton.mpr ?_⟩
    exact Excerpt.spelled_closeBrace
  have hread := reads_body_extend htold hends hfront h.reads h.tells hothers
  rwa [Seam.extend_append front (List.suffix_refl _), Seam.extend_brace] at hread

/-- How many lines the texts fill together. -/
def lineTotal : List String → Nat
  | [] => 0
  | text :: texts => lineTotal texts + lineCount text

/-- The texts are the bodies of protocols by themselves, with the members, and so they are together,
with the members of each moved down by the lines before it. -/
structure Stack (texts : List String) (members : List Member) (tokens : List Token) : Prop where
  scan : scanFrom 2 true (bodyText texts).toList =
    .ok ⟨tokens ++ [braceAt (lineTotal texts + 2)], ⟨lineTotal texts + 2, false⟩⟩
  balanced : Balanced tokens
  closed : tokens.countP (·.is "\x7b") = tokens.countP (·.is "\x7d")
  reads : Reads (readBody "P" 1) (scopeAt (lineTotal texts + 2))
    (tokens ++ [braceAt (lineTotal texts + 2)]) members [braceAt (lineTotal texts + 2)]

theorem Stack.nil : Stack [] [] [] where
  scan := scan_brace 1
  balanced := by decide
  closed := rfl
  reads := Reads.repeatFrom_stop (reads_bodyTurn_iff.mpr (.inl ⟨rfl, rfl, rfl⟩))

/-- The texts from the second one on are read where the brace was, and further down. -/
theorem Part.stack_cons {text : String} {texts : List String} {members others : List Member}
    {front tokens : List Token} (hpart : Part text members front) (h : Stack texts others tokens) :
    Stack (text :: texts) (members ++ others.map (Member.down (lineCount text)))
      (front ++ tokens.map (shift (lineCount text))) := by
  obtain ⟨hscan, hbalanced, hclosed, hreads⟩ := h
  obtain ⟨finish, hfront⟩ := hpart.scan
  have hsum : lineTotal (text :: texts) + 2 = lineTotal texts + 2 + lineCount text := by
    rw [lineTotal]
    omega
  have hsame := sameWord_shift (lineCount text) tokens
  generalize lineTotal texts + 2 = line at hscan hreads hsum
  -- What the texts below give from the second line on, they give from further down as well.
  have hshifted : scanFrom (lineCount text + 2) true (bodyText texts).toList =
      .ok ⟨tokens.map (shift (lineCount text)) ++ [braceAt (line + lineCount text)],
        ⟨line + lineCount text, false⟩⟩ := by
    rw [Nat.add_comm, scanFrom_shift (lineCount text) hscan, Tokens.shift, List.map_append]
    rfl
  constructor
  case scan =>
    rw [scan_bodyText_cons hfront, hshifted, hsum, List.append_assoc]
    rfl
  case balanced => exact hpart.balanced.append hpart.closed (hbalanced.of_sameWord hsame)
  case closed =>
    rw [List.countP_append, List.countP_append, hpart.closed, ← countP_eq_of_sameWord hsame,
      ← countP_eq_of_sameWord hsame, hclosed]
  case reads =>
    have hdown := reads_body_down hreads (lineCount text)
    rw [List.map_append] at hdown
    rw [hsum, List.append_assoc]
    refine hpart.reads_append (spelled_of_mem hshifted) ?_ hdown
    intro token htoken
    obtain ⟨others, heq⟩ := List.head?_eq_some_iff.mp htoken
    rw [heq] at hshifted
    exact freshLine_of_scanFrom hshifted

/-! ## Many texts -/

section Below

variable {α β : Type} {move : Nat → α → α} {move' : Nat → β → β}

/-- The items of each of the texts, moved down by the lines before it. -/
def below (move : Nat → α → α) (texts : List String) (items : List (List α)) : List α :=
  (List.zipWith (fun count ↦ List.map (move count)) (linesBefore texts) items).flatten

theorem below_cons (hzero : ∀ a, move 0 a = a)
    (hadd : ∀ count count' a, move (count + count') a = move count (move count' a)) (text : String)
    (texts : List String) (first : List α) (items : List (List α)) :
    below move (text :: texts) (first :: items) =
      first ++ (below move texts items).map (move (lineCount text)) := by
  have hmove (count : Nat) (own : List α) : own.map (move (lineCount text + count)) =
      (own.map (move count)).map (move (lineCount text)) := by
    rw [List.map_map]
    exact List.map_congr_left fun a _ ↦ hadd _ _ a
  have hfirst : first.map (move 0) = first := List.map_id'' hzero first
  rw [below, below, linesBefore, List.zipWith_cons_cons, List.flatten_cons, hfirst,
    List.zipWith_map_left, List.map_flatten, List.map_zipWith]
  simp only [hmove]

private theorem filterMap_below {f : α → Option β}
    (hf : ∀ count a, f (move count a) = (f a).map (move' count)) (texts : List String)
    (items : List (List α)) :
    (below move texts items).filterMap f = below move' texts (items.map (List.filterMap f)) := by
  have hmap (count : Nat) (own : List α) :
      (own.map (move count)).filterMap f = (own.filterMap f).map (move' count) := by
    rw [List.filterMap_map, List.map_filterMap]
    exact List.filterMap_congr fun a _ ↦ hf count a
  rw [below, below, List.filterMap_flatten, List.map_zipWith, List.zipWith_map_right]
  simp only [hmap]

/-- Items that do not move are those of the texts in order. -/
theorem below_id {texts : List String} {items : List (List α)} (h : texts.length = items.length) :
    below (fun _ a ↦ a) texts items = items.flatten := by
  induction texts generalizing items with
  | nil =>
    obtain rfl := List.eq_nil_of_length_eq_zero h.symm
    rfl
  | cons text texts ih =>
    obtain ⟨first, items, rfl⟩ := List.exists_cons_of_length_eq_add_one h.symm
    rw [below_cons (fun _ ↦ rfl) (fun _ _ _ ↦ rfl), ih (Nat.succ.inj h), List.map_id',
      List.flatten_cons]

end Below

private theorem exists_stack {texts : List String} {parts : List (List Member)}
    (h : List.Forall₂ (fun text members ↦ ∃ tokens, Part text members tokens) texts parts) :
    ∃ tokens, Stack texts (below Member.down texts parts) tokens := by
  induction h with
  | nil => exact ⟨[], .nil⟩
  | cons hpart _ ih =>
    obtain ⟨front, hpart⟩ := hpart
    obtain ⟨tokens, hstack⟩ := ih
    have hboth := hpart.stack_cons hstack
    rw [← below_cons Member.down_zero Member.down_add] at hboth
    exact ⟨_, hboth⟩

private theorem exists_parts {texts : List String} {protocols : List Protocol}
    (hread : List.Forall₂ (fun text protocol ↦ ofText (withBody [text]) = .ok protocol) texts
      protocols)
    (hbalanced : ∀ text ∈ texts, ∃ tokens, Tokens.scan text = .ok tokens ∧ Balanced tokens.items)
    (hbare : ∀ text ∈ texts, ∀ type, Mentions (withBody [text]) type →
      ¬ SwiftType.EndsBare type.declared) :
    ∃ parts, List.Forall₂ (fun text members ↦ ∃ tokens, Part text members tokens) texts parts ∧
      parts.map ofMembers = protocols := by
  induction hread with
  | nil => exact ⟨[], .nil, rfl⟩
  | cons hfirst _ ih =>
    obtain ⟨hbalanced₁, hbalanced⟩ := List.forall_mem_cons.mp hbalanced
    obtain ⟨hbare₁, hbare⟩ := List.forall_mem_cons.mp hbare
    obtain ⟨tokens, hscan, hbalanced₁⟩ := hbalanced₁
    obtain ⟨members, front, hpart, rfl⟩ := exists_part hfirst hscan hbalanced₁ hbare₁
    obtain ⟨parts, hparts, rfl⟩ := ih hbalanced hbare
    exact ⟨members :: parts, .cons ⟨front, hpart⟩ hparts, rfl⟩

/-- Whether the text is the body of a protocol by itself, balanced, and no type is read that ends
with a word in front of a type. -/
def standsAlone (text : String) : Bool :=
  (ofText (withBody [text])).isOk &&
    (Tokens.scan text).toOption.any (fun tokens ↦ decide (Balanced tokens.items)) &&
    (Excerpt.ofText (withBody [text])).toOption.any fun excerpts ↦ excerpts.all fun excerpt ↦
      excerpt.types.all fun type ↦ !decide (SwiftType.EndsBare type.declared)

private theorem of_standsAlone {text : String} (h : standsAlone text = true) :
    (∃ protocol, ofText (withBody [text]) = .ok protocol) ∧
      (∃ tokens, Tokens.scan text = .ok tokens ∧ Balanced tokens.items) ∧
      ∀ type, Mentions (withBody [text]) type → ¬ SwiftType.EndsBare type.declared := by
  rw [standsAlone, Bool.and_eq_true, Bool.and_eq_true] at h
  obtain ⟨⟨hread, hbalanced⟩, hnone⟩ := h
  refine ⟨Except.isOk_iff_exists.mp hread, ?_, ?_⟩
  · obtain ⟨tokens, hscan, hbalanced⟩ := (Option.any_eq_true _ _).mp hbalanced
    exact ⟨tokens, Except.toOption_eq_some_iff.mp hscan, of_decide_eq_true hbalanced⟩
  · rintro type ⟨excerpts, hexcerpts, excerpt, hexcerpt, htype⟩
    rw [Except.toOption_eq_some_iff.mpr hexcerpts, Option.any_some] at hnone
    have hnone := List.all_eq_true.mp (List.all_eq_true.mp hnone excerpt hexcerpt) type htype
    simpa using hnone

/-- Members on lines of their own are read by themselves. Where each of the texts is the body of a
protocol, their lines are the body of one with the members of each, in order and further down by the
lines before it. -/
theorem ofText_withBody {texts : List String} {protocols : List Protocol}
    (hread : List.Forall₂ (fun text protocol ↦ ofText (withBody [text]) = .ok protocol) texts
      protocols)
    (hbalanced : ∀ text ∈ texts, ∃ tokens, Tokens.scan text = .ok tokens ∧ Balanced tokens.items)
    (hbare : ∀ text ∈ texts, ∀ type, Mentions (withBody [text]) type →
      ¬ SwiftType.EndsBare type.declared) :
    ofText (withBody texts) = .ok {
      name := "P"
      methods := below Method.down texts (protocols.map Protocol.methods)
      properties := below Property.down texts (protocols.map Protocol.properties)
      associatedTypes := protocols.flatMap Protocol.associatedTypes
      line? := some 1 } := by
  obtain ⟨parts, hparts, rfl⟩ := exists_parts hread hbalanced hbare
  obtain ⟨tokens, hstack⟩ := exists_stack hparts
  have hmembers : Reads readMembers _ _ (ofMembers (below Member.down texts parts)) [] :=
    reads_readMembers_iff.mpr ⟨_, _, hstack.reads, rfl, rfl⟩
  have hmethods : (below Member.down texts parts).filterMap Member.method? =
      below Method.down texts ((parts.map ofMembers).map Protocol.methods) := by
    rw [List.map_map]
    exact filterMap_below Member.method?_down texts parts
  have hproperties : (below Member.down texts parts).filterMap Member.property? =
      below Property.down texts ((parts.map ofMembers).map Protocol.properties) := by
    rw [List.map_map]
    exact filterMap_below Member.property?_down texts parts
  have htypes : (below Member.down texts parts).filterMap Member.associatedType? =
      (parts.map ofMembers).flatMap Protocol.associatedTypes := by
    have hlength : texts.length = (parts.map (List.filterMap Member.associatedType?)).length := by
      rw [List.length_map, hparts.length_eq]
    rw [filterMap_below Member.associatedType?_down, below_id hlength, List.flatMap_map]
    rfl
  rw [ofText, located_withBody hstack.scan hstack.balanced, ← hmethods, ← hproperties, ← htypes]
  exact (congrArg Reading.result (read_withBody _ _)).trans hmembers.result_eq

/-- The first text breaks its member in the middle, the second has two members on a line, and the
third begins with one that is skipped. -/
theorem ofText_withBody_three : ∃ texts protocols,
    texts = ["func f(a: Int?)\n  async -> [some P]",
      "var x: any Q \x7b get set \x7d; static func g()",
      "init(y: R)\n  where R: S\nassociatedtype T: A & B = C"] ∧
    List.Forall₂ (fun text protocol ↦ ofText (withBody [text]) = .ok protocol) texts protocols ∧
    (∀ text ∈ texts, ∃ tokens, Tokens.scan text = .ok tokens ∧ Balanced tokens.items) ∧
    (∀ text ∈ texts, ∀ type, Mentions (withBody [text]) type → ¬ SwiftType.EndsBare type.declared) ∧
    ofText (withBody texts) = .ok {
      name := "P"
      methods := below Method.down texts (protocols.map Protocol.methods)
      properties := below Property.down texts (protocols.map Protocol.properties)
      associatedTypes := protocols.flatMap Protocol.associatedTypes
      line? := some 1 } := by
  have halone : ∀ text ∈ ["func f(a: Int?)\n  async -> [some P]",
      "var x: any Q \x7b get set \x7d; static func g()",
      "init(y: R)\n  where R: S\nassociatedtype T: A & B = C"], standsAlone text = true := by
    decide +kernel
  obtain ⟨protocols, hread⟩ :=
    exists_forall₂_of_forall_exists fun text htext ↦ (of_standsAlone (halone text htext)).1
  have hbalanced := fun text htext ↦ (of_standsAlone (halone text htext)).2.1
  have hbare := fun text htext ↦ (of_standsAlone (halone text htext)).2.2
  exact ⟨_, protocols, rfl, hread, hbalanced, hbare, ofText_withBody hread hbalanced hbare⟩

end Protocol

end TestDouble
