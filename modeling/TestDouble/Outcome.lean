import TestDouble.Mock.Derivation
import TestDouble.Mock.Print
import TestDouble.Protocol.Read
import TestDouble.Text.Json

/-!
# Outcomes

What becomes of the protocols in a source text. Every protocol that is located has one outcome, in
the order of the text: its test double, or the fault for which there is none. A protocol that cannot
be read is no obstacle to the others, apart from its requirements, which are missing where others
refine it. Only a text that has no tokens has a single outcome for the whole of it.
-/

namespace TestDouble

/-- A source text under the name that reports give it. -/
structure Source where
  name : String
  content : String
  deriving DecidableEq, Repr

inductive Outcome where
  | made (source protocol className fileName text : String)
  | refused (source protocol className : String) (fault : Fault)
  /-- The text has no tokens. -/
  | unreadable (source : String) (fault : Fault)
  deriving DecidableEq, Repr

/-- The test double for a text that declares exactly one protocol. -/
def Mock.printText (style : Style) (text : String) : Except Fault String := do
  let protocol ← Protocol.ofText text
  return (← Mock.ofProtocol style .empty protocol).print style

namespace Outcome

/-! ## From texts to outcomes -/

/-- The outcome for a located protocol, given what reading it gave. -/
def ofReading (style : Style) (known : Catalogue) (source : String) (excerpt : Excerpt) :
    Except Fault Protocol → Outcome
  | .error fault =>
    refused source excerpt.name (style.className excerpt.name) (fault.within (some excerpt.name))
  | .ok protocol =>
    match Mock.ofProtocol style known protocol with
    | .error fault =>
      refused source protocol.name (style.className protocol.name)
        (fault.within (some protocol.name))
    | .ok mock =>
      made source protocol.name mock.name (style.fileName protocol.name) (mock.print style)

/-- The catalogue with all protocols that could be read. -/
def addReadable (known : Catalogue) (excerpts : List Excerpt) : Catalogue :=
  (excerpts.filterMap fun excerpt ↦ excerpt.read.result.toOption).foldl .add known

def ofExcerpts (style : Style) (known : Catalogue) (source : String) (excerpts : List Excerpt) :
    List Outcome :=
  let known := addReadable known excerpts
  excerpts.map fun excerpt ↦ ofReading style known source excerpt excerpt.read.result

/-- The outcomes of a source, given protocols declared elsewhere that it may refine. -/
def ofSource (style : Style) (known : Catalogue) (source : Source) : List Outcome :=
  match Excerpt.ofText source.content with
  | .error fault => [unreadable source.name fault]
  | .ok excerpts => ofExcerpts style known source.name excerpts

/-- The outcomes of many sources, which know nothing of each other. -/
def ofSources (style : Style) (sources : List Source) : List Outcome :=
  sources.flatMap (ofSource style .empty)

/-! ## Reports -/

def source : Outcome → String
  | made source .. | refused source .. | unreadable source _ => source

def protocol? : Outcome → Option String
  | made _ protocol .. | refused _ protocol .. => some protocol
  | unreadable .. => none

def fault? : Outcome → Option Fault
  | made .. => none
  | refused _ _ _ fault | unreadable _ fault => some fault

def isMade (outcome : Outcome) : Bool :=
  outcome.fault?.isNone

open Text (Json) in
/-- A fault in a report, without the parts that are unknown. -/
def faultJson (fault : Fault) : Json :=
  .object <|
    [("kind", .text fault.kind.name), ("message", .text fault.cause.message)]
      ++ (fault.place.protocol?.map fun name ↦ ("interface", .text name)).toList
      ++ (fault.place.member?.map fun name ↦ ("method", .text name)).toList
      ++ (fault.line?.map fun line ↦ ("line", .number line)).toList

open Text (Json) in
/-- An outcome in a report, without the parts that it does not have. -/
def json : Outcome → Json
  | made source protocol className fileName text =>
    .object [("source_name", .text source), ("interface", .text protocol),
      ("mock_name", .text className), ("output_filename", .text fileName), ("output", .text text)]
  | refused source protocol className fault =>
    .object [("source_name", .text source), ("interface", .text protocol),
      ("mock_name", .text className), ("error", faultJson fault)]
  | unreadable source fault =>
    .object [("source_name", .text source), ("error", faultJson fault)]

/-! ## Notices -/

/-- What there is to tell about reading the protocols in a source. -/
def readingNotices (source : String) (excerpts : List Excerpt) : List Notice :=
  excerpts.flatMap fun excerpt ↦
    let reading := excerpt.read
    reading.notices ++
      match reading.result with
      | .ok _ => []
      | .error fault => [.skippedProtocol excerpt.name source fault]

/-- What there is to tell about the test doubles of the protocols that could be read. -/
def derivingNotices (style : Style) (known : Catalogue) (source : String)
    (excerpts : List Excerpt) : List Notice :=
  let known := addReadable known excerpts
  (excerpts.filterMap fun excerpt ↦ excerpt.read.result.toOption).flatMap fun protocol ↦
    Mock.notices style known protocol ++
      match Mock.ofProtocol style known protocol with
      | .ok mock => [mock.printNotice style]
      | .error fault => [.skippedProtocol protocol.name source fault]

def summaryNotice (source : String) (outcomes : List Outcome) : Notice :=
  let made := outcomes.countP isMade
  .generated source made (outcomes.length - made)

/-- What there is to tell about a source. -/
def notices (style : Style) (known : Catalogue) (source : Source) : List Notice :=
  .generating source.name ::
    match Tokens.scan source.content with
    | .error fault => [.untokenized source.name fault]
    | .ok tokens =>
      let excerpts := Excerpt.locate tokens
      let located :=
        .tokenized tokens.items.length tokens.finish.line :: excerpts.map (·.notice)
      if excerpts.isEmpty then located ++ [.noProtocols source.name]
      else
        located ++ readingNotices source.name excerpts
          ++ derivingNotices style known source.name excerpts
          ++ [summaryNotice source.name (ofExcerpts style known source.name excerpts)]

end Outcome

end TestDouble
