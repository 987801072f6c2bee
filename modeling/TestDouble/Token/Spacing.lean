import TestDouble.Token.Basic

/-!
# Spacing

Token texts joined into one line, spaced as Swift is usually written. The spacing goes by the two
texts at a joint alone.
-/

namespace TestDouble.Token

/-- Texts that follow the text before them directly. -/
def clingsBack : List String :=
  [",", ":", ")", "]", ">", ".", "?", "!", "..."]

/-- Texts that the next one follows directly. -/
def clingsForward : List String :=
  ["(", "[", "<", ".", "@"]

/-- Opening brackets, which follow most texts directly. -/
def groupOpeners : List String :=
  ["(", "<", "["]

/-- Texts that keep their distance from an opening bracket. -/
def keepsDistance : List String :=
  [",", ":", "=", "->", "&"]

/-- Whether a space stands between two texts. -/
def spaced (previous current : String) : Bool :=
  if current ∈ clingsBack ∨ previous ∈ clingsForward then false
  else if current ∈ groupOpeners then previous ∈ keepsDistance
  else true

/-- The texts after `previous`, each after its space. -/
def joinAfter (previous : String) : List String → String
  | [] => ""
  | text :: rest => (if spaced previous text then " " else "") ++ text ++ joinAfter text rest

def joinTexts : List String → String
  | [] => ""
  | text :: rest => text ++ joinAfter text rest

/-- The tokens as one line of text. -/
def join (tokens : List Token) : String :=
  joinTexts (tokens.map (·.text))

end TestDouble.Token
