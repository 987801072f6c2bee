/-!
# Tokens

The lexical items of Swift source. A token remembers its line and whether a line break stands
before it, since Swift ends declarations at line breaks; blanks and comments leave no other trace.
-/

namespace TestDouble

inductive Token.Kind where
  | identifier
  | keyword
  /-- A name after an at sign, such as `@escaping`. -/
  | attribute
  | punctuation
  | operator
  | string
  | number
  deriving DecidableEq, Repr

structure Token where
  kind : Token.Kind
  text : String
  line : Nat
  /-- A line break stands between this token and the one before it. -/
  freshLine : Bool := false
  deriving DecidableEq, Repr

/-- Where a text ends. -/
structure Finish where
  line : Nat
  freshLine : Bool := false
  deriving DecidableEq, Repr

/-- The tokens of a text and its end. -/
structure Tokens where
  items : List Token
  finish : Finish
  deriving DecidableEq, Repr

namespace Token

/-- The words that are no names. -/
def keywords : List String :=
  ["associatedtype", "class", "func", "init", "inout", "let", "protocol", "static", "subscript",
   "typealias", "var", "where", "throws", "rethrows"]

/-- Whether the token is the given word or symbol. A string literal is neither. -/
def is (token : Token) (text : String) : Bool :=
  token.kind ≠ .string && token.text = text

/-- Whether the token may stand for a name. -/
def isName (token : Token) : Bool :=
  token.kind = .identifier || token.kind = .keyword

end Token

end TestDouble
