import TestDouble.Proofs.Protocol.Brace
import TestDouble.Proofs.Protocol.Joined
import TestDouble.Proofs.Protocol.Seam
import TestDouble.Proofs.Token.Layout

/-!
# Bodies of members on lines of their own

A body is a list of texts, each with line breaks around it. If each of them is the body of a
protocol by itself, then the protocol with all of them has the members of each, further down.

What holds the texts together is counting braces. A text that never closes more braces than it opens
leaves the brace at the end of the body to the body, and reading it closes as many as it opens.
-/

namespace TestDouble

open Reader Token

/-! ## Balance -/

/-- What is level and ends at a closing brace is all that stands in front of the last one. -/
theorem Within.eq_of_levels {tokens taken rest : List Token} {brace closer : Token}
    (h : Balanced tokens) (htaken : Levels taken) (hcloser : closer.is "\x7d" = true)
    (heq : tokens ++ [brace] = taken ++ closer :: rest) :
    tokens = taken ∧ brace = closer ∧ rest = [] := by
  rcases List.eq_nil_or_concat rest with rfl | ⟨others, last, rfl⟩
  · obtain ⟨rfl, hlast⟩ := List.append_inj' heq rfl
    exact ⟨rfl, (List.cons.inj hlast).1, rfl⟩
  · have hopen : closer.is "\x7b" = false := is_eq_false_of_is hcloser (by decide)
    have hsplit :
        taken ++ closer :: others.concat last = taken ++ [closer] ++ others ++ [last] := by
      simp
    obtain ⟨rfl, -⟩ := List.append_inj' (heq.trans hsplit) rfl
    have hcount := h (taken ++ [closer]) (List.prefix_append _ _)
    simp only [List.countP_append, List.countP_singleton, hcloser, hopen, if_true,
      Bool.false_eq_true, if_false] at hcount
    rw [Levels] at htaken
    omega

/-! ## Behind a line break -/

namespace Token

variable {line : Nat} {fresh : Bool} {cs : List Char} {tokens : Tokens}

private theorem finish_line_of_scanFrom (h : scanFrom line fresh cs = .ok tokens) :
    tokens.finish.line = line + cs.count '\n' := by
  obtain ⟨pieces, last, -, rfl, harranged⟩ := exists_arranged h
  exact harranged.finish_line

/-- A text is scanned alike behind a line break. -/
theorem exists_scanFrom_fresh (h : scanFrom line fresh cs = .ok tokens) :
    ∃ finish, scanFrom line true cs = .ok ⟨freshen tokens.items, finish⟩ := by
  fun_induction scanFrom line fresh cs generalizing tokens with
  | case1 line fresh =>
    obtain rfl := Except.ok.inj h
    refine ⟨⟨line, true⟩, ?_⟩
    rw [scanFrom]
    rfl
  | case2 => simp at h
  | case3 line fresh c cs n text nextLine hpiece =>
    rename_i ih
    obtain ⟨finish, hfresh⟩ := ih h
    refine ⟨finish, ?_⟩
    rw [scanFrom]
    simp only [hpiece]
    exact hfresh
  | case4 line fresh c cs n text nextLine kind hpiece =>
    obtain ⟨later, hlater, rfl⟩ := Except.map_eq_ok_iff.mp h
    refine ⟨later.finish, ?_⟩
    rw [scanFrom]
    simp only [hpiece]
    rw [Except.map_eq_ok_iff]
    exact ⟨later, hlater, rfl⟩

/-- Behind a line break the first token is on a fresh line. -/
theorem freshLine_of_scanFrom {token : Token} {others : List Token} {finish : Finish}
    (h : scanFrom line true cs = .ok ⟨token :: others, finish⟩) : token.freshLine = true := by
  obtain ⟨finish', hfresh⟩ := exists_scanFrom_fresh h
  have heq := congrArg Tokens.items (Except.ok.inj (h.symm.trans hfresh))
  rw [(List.cons.inj heq).1]

private theorem sameWord_freshen (tokens : List Token) :
    List.Forall₂ SameWord tokens (freshen tokens) := by
  cases tokens with
  | nil => exact .nil
  | cons token tokens => exact .cons ⟨rfl, rfl⟩ (List.forall₂_same.mpr fun _ _ ↦ ⟨rfl, rfl⟩)

theorem sameWord_shift (count : Nat) (tokens : List Token) :
    List.Forall₂ SameWord tokens (tokens.map (shift count)) :=
  List.forall₂_map_right_iff.mpr (List.forall₂_same.mpr fun _ _ ↦ ⟨rfl, rfl⟩)

theorem countP_eq_of_sameWord {tokens tokens' : List Token}
    (h : List.Forall₂ SameWord tokens tokens') (text : String) :
    tokens.countP (·.is text) = tokens'.countP (·.is text) := by
  induction h with
  | nil => rfl
  | cons hfirst _ ih => rw [List.countP_cons, List.countP_cons, ih, hfirst.is_eq]

end Token

theorem Within.of_sameWord {depth : Nat} {tokens tokens' : List Token} (h : Within depth tokens)
    (hsame : List.Forall₂ Token.SameWord tokens tokens') : Within depth tokens' := by
  intro front hfront
  have hpart := List.forall₂_take front.length hsame
  rw [← List.prefix_iff_eq_take.mp hfront] at hpart
  rw [← countP_eq_of_sameWord hpart, ← countP_eq_of_sameWord hpart]
  exact h _ (List.take_prefix _ _)

/-- The types that are read where the declaration is read, in the order in which they end. -/
def Excerpt.types (excerpt : Excerpt) : List SwiftType :=
  excerpt.read.notices.filterMap Notice.type?

/-! ## The declaration around a body -/

namespace Protocol

/-- The tokens in front of a body. -/
def head : List Token :=
  [⟨.keyword, "protocol", 1, false⟩, ⟨.identifier, "P", 1, false⟩, ⟨.punctuation, "\x7b", 1, false⟩]

/-- The brace on a line of its own at the end of a body. -/
def braceAt (line : Nat) : Token :=
  ⟨.punctuation, "\x7d", line, true⟩

/-- The protocol with the given members. -/
def ofMembers (members : List Member) : Protocol where
  name := "P"
  methods := members.filterMap Member.method?
  properties := members.filterMap Member.property?
  associatedTypes := members.filterMap Member.associatedType?
  line? := some 1

/-- Balanced tokens in a body do not end it. -/
theorem locate_body {tokens : List Token} (h : Balanced tokens) (line : Nat) (finish : Finish) :
    Excerpt.locate ⟨head ++ (tokens ++ [braceAt line]), finish⟩ =
      [⟨"P", 1, head ++ (tokens ++ [braceAt line]), finish⟩] := by
  have hextent : Excerpt.declarationExtent (head.tail ++ (tokens ++ [braceAt line])) =
      (head.tail ++ (tokens ++ [braceAt line])).length := by
    have hbrace := Within.braceExtent h (rfl : (braceAt line).is "\x7d" = true)
    have hbody : Excerpt.braceExtent 0 (head.drop 2 ++ (tokens ++ [braceAt line])) =
        tokens.length + 2 := congrArg (· + 1) hbrace
    calc Excerpt.declarationExtent (head.tail ++ (tokens ++ [braceAt line]))
        = 1 + Excerpt.braceExtent 0 (head.drop 2 ++ (tokens ++ [braceAt line])) := rfl
      _ = (head.tail ++ (tokens ++ [braceAt line])).length := by
        rw [hbody]
        simp [head]
        omega
  have hname : Excerpt.declaredName? ⟨.keyword, "protocol", 1, false⟩
      (head.tail ++ (tokens ++ [braceAt line])) = some "P" := rfl
  have hlead : Excerpt.leadExtent [] = 0 := by rw [Excerpt.leadExtent]
  have hnone (before : List Token) : Excerpt.locateFrom finish before [] = [] := by
    rw [Excerpt.locateFrom]
  have hhead : head ++ (tokens ++ [braceAt line]) =
      ⟨.keyword, "protocol", 1, false⟩ :: (head.tail ++ (tokens ++ [braceAt line])) := rfl
  rw [Excerpt.locate, hhead, Excerpt.locateFrom]
  simp only [hname, hextent, hlead, List.take_length, List.drop_length, hnone]
  rfl

section Declaration

variable {scope : Scope} {tokens rest : List Token}

/-- What is read of a protocol from its body on. -/
def readMembers : Reader Protocol := do
  let members ← readBody "P" 1
  let _ ← expect "\x7d" "to close body of protocol P"
  let protocol := ofMembers members
  tell (.readProtocol "P" protocol.methods.length protocol.properties.length)
  return ofMembers members

/-- Nothing is told about the tokens in front of a body. -/
theorem readDeclaration_head (scope : Scope) (tokens : List Token) :
    readDeclaration 1 scope (head ++ tokens) = readMembers scope tokens := by
  have hbind {α β : Type} {read : Reader α} {next : α → Reader β} {a : α} {front mid : List Token}
      (h : read scope front = ⟨.ok a, mid, []⟩) :
      (read >>= next) scope front = next a scope mid := by
    simp only [bind, h, List.nil_append]
  have hlead : Lead.read scope (head ++ tokens) = ⟨.ok [], head ++ tokens, []⟩ := by
    rw [Lead.read, repeated, numbered, repeatFrom]
    rfl
  have hkeyword (context : String) : expect "protocol" context scope (head ++ tokens) =
      ⟨.ok ⟨.keyword, "protocol", 1, false⟩, head.tail ++ tokens, []⟩ := rfl
  have hname (context : String) : expectName context scope (head.tail ++ tokens) =
      ⟨.ok ⟨.identifier, "P", 1, false⟩, head.drop 2 ++ tokens, []⟩ := rfl
  have hangle : adjoinedGroup .angle scope (head.drop 2 ++ tokens) =
      ⟨.ok "", head.drop 2 ++ tokens, []⟩ := rfl
  have hinherited : readInheritance scope (head.drop 2 ++ tokens) =
      ⟨.ok [], head.drop 2 ++ tokens, []⟩ := rfl
  have hwhere : accept "where" scope (head.drop 2 ++ tokens) =
      ⟨.ok false, head.drop 2 ++ tokens, []⟩ := rfl
  have hopens (context : String) : expect "\x7b" context scope (head.drop 2 ++ tokens) =
      ⟨.ok ⟨.punctuation, "\x7b", 1, false⟩, tokens, []⟩ := rfl
  -- One step after the other, since what follows a step is known only when it has been taken.
  refine (hbind hlead).trans ?_
  refine (hbind (hkeyword _)).trans ?_
  refine (hbind (hname _)).trans ?_
  refine (hbind hangle).trans ?_
  refine (hbind hinherited).trans ?_
  refine (hbind hwhere).trans ?_
  refine (hbind (hopens _)).trans ?_
  rfl

theorem reads_readMembers_iff {protocol : Protocol} :
    Reads readMembers scope tokens protocol rest ↔
      ∃ members closer, Reads (readBody "P" 1) scope tokens members (closer :: rest) ∧
        closer.is "\x7d" = true ∧ ofMembers members = protocol := by
  refine reads_bind_iff.trans ⟨?_, ?_⟩
  · rintro ⟨members, mid, hbody, hread⟩
    obtain ⟨closer, back, hcloser, htold⟩ := reads_bind_iff.mp hread
    obtain ⟨rfl, his⟩ := reads_expect_iff.mp hcloser
    have hpure := reads_tell_bind_iff.mp htold
    obtain ⟨rfl, rfl⟩ := reads_pure_iff.mp hpure
    exact ⟨members, closer, hbody, his, rfl⟩
  · rintro ⟨members, closer, hbody, his, rfl⟩
    refine ⟨members, closer :: rest, hbody, (reads_expect_bind_iff_of_is his).mpr ?_⟩
    simp

end Declaration

/-! ## Texts as bodies -/

/-- The number of lines of a text, the last of which ends with a line break. -/
def lineCount (text : String) : Nat :=
  text.toList.count '\n' + 1

/-- The number of lines before each of the texts. -/
def linesBefore : List String → List Nat
  | [] => []
  | text :: texts => 0 :: (linesBefore texts).map (lineCount text + ·)

/-- The lines of the texts and the brace behind them. -/
def bodyText (texts : List String) : String :=
  String.join (texts.map (· ++ "\n")) ++ "\x7d"

/-- The declaration of a protocol with the texts in its body, each on lines of its own. -/
def withBody (texts : List String) : String :=
  "protocol P \x7b\n" ++ bodyText texts

@[simp] theorem toList_bodyText_cons (text : String) (texts : List String) :
    (bodyText (text :: texts)).toList = text.toList ++ '\n' :: (bodyText texts).toList := by
  simp [bodyText]

@[simp] theorem toList_withBody (texts : List String) :
    (withBody texts).toList = "protocol P \x7b".toList ++ '\n' :: (bodyText texts).toList := by
  simp [withBody]

theorem scan_withBody {texts : List String} {tokens : Tokens}
    (h : scanFrom 2 true (bodyText texts).toList = .ok tokens) :
    Tokens.scan (withBody texts) = .ok { tokens with items := head ++ tokens.items } := by
  have hhead : scanFrom 1 false "protocol P \x7b".toList = .ok ⟨head, ⟨1, false⟩⟩ := by
    decide +kernel
  rw [Tokens.scan, toList_withBody, scanFrom_append_lineFeed hhead, h]
  rfl

theorem scan_brace (line : Nat) :
    scanFrom (line + 1) true (bodyText []).toList =
      .ok ⟨[braceAt (line + 1)], ⟨line + 1, false⟩⟩ := by
  have hfirst : scanFrom 1 true (bodyText []).toList = .ok ⟨[braceAt 1], ⟨1, false⟩⟩ := by
    decide +kernel
  rw [Nat.add_comm]
  exact scanFrom_shift line hfirst

theorem scan_bodyText_cons {text : String} {tokens : List Token} {finish : Finish}
    (h : scanFrom 2 true text.toList = .ok ⟨tokens, finish⟩) (texts : List String) :
    scanFrom 2 true (bodyText (text :: texts)).toList =
      (scanFrom (lineCount text + 2) true (bodyText texts).toList).map fun later ↦
        { later with items := tokens ++ later.items } := by
  have hline : finish.line + 1 = lineCount text + 2 := by
    rw [finish_line_of_scanFrom h, lineCount]
    omega
  simp [scanFrom_append_lineFeed h, hline]

/-- The scope in which a body is read that ends on a line. -/
def scopeAt (line : Nat) : Scope where
  finish := ⟨line, false⟩
  place := { protocol? := some "P" }

/-- No type is read that ends with a word that can stand in front of a type. -/
def Settles (notice : Notice) : Prop :=
  ∀ type ∈ notice.type?, ¬ SwiftType.EndsBare type.declared

/-- The text is the body of a protocol by itself, with the members, and closes the braces that it
opens. -/
structure Part (text : String) (members : List Member) (tokens : List Token) : Prop where
  scan : ∃ finish, scanFrom 2 true text.toList = .ok ⟨tokens, finish⟩
  balanced : Balanced tokens
  closed : tokens.countP (·.is "\x7b") = tokens.countP (·.is "\x7d")
  reads : Reads (readBody "P" 1) (scopeAt (lineCount text + 2))
    (tokens ++ [braceAt (lineCount text + 2)]) members [braceAt (lineCount text + 2)]
  tells : Tells Settles (readBody "P" 1) (scopeAt (lineCount text + 2))
    (tokens ++ [braceAt (lineCount text + 2)])

/-- The type is one of those that are read where the protocols in the text are read. -/
def Mentions (text : String) (type : SwiftType) : Prop :=
  ∃ excerpts, Excerpt.ofText text = .ok excerpts ∧ ∃ excerpt ∈ excerpts, type ∈ excerpt.types

/-- A balanced body is located whole, and read as its members. -/
theorem located_withBody {texts : List String} {tokens : List Token} {line : Nat}
    (hscan : scanFrom 2 true (bodyText texts).toList =
      .ok ⟨tokens ++ [braceAt line], ⟨line, false⟩⟩) (hbalanced : Balanced tokens) :
    Excerpt.ofText (withBody texts) =
      .ok [⟨"P", 1, head ++ (tokens ++ [braceAt line]), ⟨line, false⟩⟩] := by
  rw [Excerpt.ofText, scan_withBody hscan, ← locate_body hbalanced]
  rfl

theorem read_withBody (tokens : List Token) (line : Nat) :
    Excerpt.read ⟨"P", 1, head ++ tokens, ⟨line, false⟩⟩ = readMembers (scopeAt line) tokens :=
  readDeclaration_head _ _

section Single

variable {text : String} {tokens : List Token} {finish : Finish}
  (hscan : scanFrom 2 true text.toList = .ok ⟨tokens, finish⟩)
include hscan

theorem scan_bodyText_singleton : scanFrom 2 true (bodyText [text]).toList =
    .ok ⟨tokens ++ [braceAt (lineCount text + 2)], ⟨lineCount text + 2, false⟩⟩ := by
  rw [scan_bodyText_cons hscan, scan_brace]
  rfl

/-- A protocol with a balanced text in its body is what is read of the text. -/
theorem ofText_eq_result_readMembers (hbalanced : Balanced tokens) :
    ofText (withBody [text]) = (readMembers (scopeAt (lineCount text + 2))
      (tokens ++ [braceAt (lineCount text + 2)])).result := by
  rw [ofText, located_withBody (scan_bodyText_singleton hscan) hbalanced, ← read_withBody]
  rfl

end Single

/-- A balanced text that is the body of a protocol closes the braces that it opens. -/
theorem exists_part {text : String} {protocol : Protocol} {tokens : Tokens}
    (hread : ofText (withBody [text]) = .ok protocol) (hscan : Tokens.scan text = .ok tokens)
    (hbalanced : Balanced tokens.items)
    (hbare : ∀ type, Mentions (withBody [text]) type → ¬ SwiftType.EndsBare type.declared) :
    ∃ members front, Part text members front ∧ ofMembers members = protocol := by
  obtain ⟨finish, hfront⟩ := exists_scanFrom_fresh (scanFrom_shift 1 hscan)
  have hbalanced : Balanced (freshen (tokens.shift 1).items) :=
    (hbalanced.of_sameWord (sameWord_shift 1 _)).of_sameWord (sameWord_freshen _)
  generalize freshen (tokens.shift 1).items = front at hfront hbalanced
  have hbody := scan_bodyText_singleton hfront
  have hlocated := located_withBody hbody hbalanced
  rw [ofText_eq_result_readMembers hfront hbalanced] at hread
  obtain ⟨members, closer, hmembers, his, rfl⟩ := reads_readMembers_iff.mp ⟨hread, rfl⟩
  -- The body that was read has as many opening as closing braces, and so it is the whole text.
  obtain ⟨taken, htaken, hlevels⟩ := levels_of_reads_body (spelled_of_mem hbody) hmembers
  obtain ⟨rfl, rfl, hrest⟩ := hbalanced.eq_of_levels hlevels his htaken
  rw [hrest] at hmembers
  have htells : Tells Settles readMembers (scopeAt (lineCount text + 2))
      (front ++ [braceAt (lineCount text + 2)]) := by
    intro notice hnotice type htype
    refine hbare type ⟨_, hlocated, _, List.mem_singleton_self _, ?_⟩
    rw [Excerpt.types, read_withBody]
    exact List.mem_filterMap.mpr ⟨notice, hnotice, htype⟩
  refine ⟨members, front, ⟨⟨finish, hfront⟩, hbalanced, ?_, hmembers, (htells.of_bind hmembers).1⟩,
    rfl⟩
  have hcount := hbalanced front (List.prefix_refl front)
  rw [Levels] at hlevels
  omega

end Protocol

end TestDouble
