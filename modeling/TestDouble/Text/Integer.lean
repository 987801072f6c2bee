import TestDouble.Text.Blank
import TestDouble.Text.Word

/-!
# Integers

How a whole number is spelled: an optional sign and decimal digits of any script, with single
underscores between them as the writer likes. Blank characters around the number do not count, with
the exception of the information separators U+001C to U+001F, which no number may have near it.
-/

namespace TestDouble.Text

/-- Whether a number may have the character around it. -/
def isPadding (c : Char) : Bool :=
  isBlank c && !(0x1C ≤ c.toNat && c.toNat ≤ 0x1F)

/-- The values of digits that have at most one underscore between any two of them. -/
def digitValues? : List Char → Option (List Nat)
  | [] => none
  | [c] => digitValue? c |>.map ([·])
  | c :: '_' :: cs | c :: cs => do return (← digitValue? c) :: (← digitValues? cs)

/-- The most digits that a number may have. -/
def maxDigits : Nat := 4300

def natural? (cs : List Char) : Option Nat := do
  let digits ← digitValues? cs
  if digits.length ≤ maxDigits then
    return digits.foldl (fun value digit ↦ 10 * value + digit) 0
  else none

/-- The number that a text spells. -/
def integer? (text : String) : Option Int :=
  match ((text.toList.dropWhile isPadding).reverse.dropWhile isPadding).reverse with
  | '-' :: cs => natural? cs |>.map fun value ↦ -(value : Int)
  | '+' :: cs | cs => natural? cs |>.map fun value ↦ (value : Int)

end TestDouble.Text
