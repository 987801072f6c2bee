import TestDouble.Fault
import TestDouble.SwiftType.Basic

/-!
# Notices

What the program tells about its work on the way. Nothing depends on a notice: every stage computes
its result alone, and says separately what there was to tell. How a notice is worded is said in one
place.
-/

namespace TestDouble

inductive Notice.Level where
  | debug
  | info
  | warning
  | error
  deriving DecidableEq, Repr

/-- What there is to tell. -/
inductive Notice where
  | reading (path : String)
  | working (sources : Nat) (workers : Int)
  | generating (source : String)
  | untokenized (source : String) (fault : Fault)
  | tokenized (tokens lines : Nat)
  | located (protocol : String) (line : Nat)
  | noProtocols (source : String)
  | readType (type : SwiftType)
  | readMethod (selector : String)
  | skippedMember (keyword protocol : String) (line : Nat)
  | readProtocol (protocol : String) (methods properties : Nat)
  | skippedProtocol (protocol source : String) (fault : Fault)
  | refines (protocol : String) (others : List String)
  | overloaded (count : Nat) (key : String)
  | renamed (selector name : String)
  | tracked (protocol selector name : String)
  | uncalled (closure selector : String)
  | derived (mock : String) (methods properties fields : Nat)
  | printed (mock : String) (lines : Nat)
  | generated (source : String) (made lost : Nat)
  | written (path : String)
  | failed (what message : String)
  deriving Repr

namespace Notice

def Level.name : Level → String
  | debug => "DEBUG"
  | info => "INFO"
  | warning => "WARNING"
  | error => "ERROR"

def Level.rank : Level → Nat
  | debug => 0
  | info => 1
  | warning => 2
  | error => 3

def level : Notice → Level
  | failed .. => .error
  | untokenized .. | skippedMember .. | skippedProtocol .. => .warning
  | reading .. | working .. | generating .. | noProtocols .. | readProtocol .. | renamed ..
  | derived .. | generated .. | written .. => .info
  | tokenized .. | located .. | readType .. | readMethod .. | refines .. | overloaded ..
  | tracked .. | uncalled .. | printed .. => .debug

def text : Notice → String
  | reading path => s!"Reading {path}"
  | working sources workers => s!"Processing {sources} sources with {workers} workers"
  | generating source => s!"Generating mocks for {source}"
  | untokenized source fault => s!"Could not tokenize {source}: {fault.text}"
  | tokenized tokens lines => s!"Tokenized {tokens} tokens over {lines} lines"
  | located protocol line => s!"Located protocol {protocol} at line {line}"
  | noProtocols source => s!"No protocol declarations in {source}"
  | readType type =>
    let shown := Text.quoted type.declared
    s!"Parsed type {shown} as {type.optionality.name}"
  | readMethod selector => s!"Parsed method {selector}"
  | skippedMember keyword protocol line =>
    s!"Skipping unsupported '{keyword}' requirement in {protocol} at line {line}"
  | readProtocol protocol methods properties =>
    s!"Parsed protocol {protocol}: {methods} methods, {properties} properties"
  | skippedProtocol protocol source fault =>
    s!"Skipping protocol {protocol} in {source}: {fault.text}"
  | refines protocol others =>
    let listed := String.intercalate ", " others
    s!"{protocol} refines {listed}"
  | overloaded count key => s!"Disambiguated {count} overloads of {key}"
  | renamed selector name => s!"Renamed tracking fields of {selector} to {name}"
  | tracked protocol selector name => s!"{protocol}.{selector} tracked as {name}"
  | uncalled closure selector => s!"Not calling async closure '{closure}' from {selector}"
  | derived mock methods properties fields =>
    s!"Synthesized {mock}: {methods} methods, {properties} properties, {fields} fields"
  | printed mock lines => s!"Rendered {mock} in {lines} lines"
  | generated source made lost => s!"Generated {made} mocks for {source}, {lost} failed"
  | written path => s!"Mock written to {path}"
  | failed what message => s!"{what}: {message}"

/-- The notice as one line of a log. -/
def line (notice : Notice) : String :=
  s!"{notice.level.name}: {notice.text}"

/-- The type that was read, where the notice tells of one. -/
def type? : Notice → Option SwiftType
  | readType type => some type
  | _ => none

end Notice

end TestDouble
