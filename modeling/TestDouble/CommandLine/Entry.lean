/-!
# Entries

What is entered for a setting. `--` in the place of a value leaves the entry blank: the setting is
made, and yet there is nothing in it.
-/

namespace TestDouble.CommandLine

inductive Entry (α : Type) where
  | blank
  | value (value : α)
  deriving DecidableEq, Repr

namespace Entry

/-- The entry with its value changed, if it has one. -/
def map {α β : Type} (f : α → β) : Entry α → Entry β
  | blank => blank
  | value a => value (f a)

/-- What a text means in the place of a value. -/
def ofText (text : String) : Entry String :=
  if text = "--" then blank else value text

end Entry

end TestDouble.CommandLine
