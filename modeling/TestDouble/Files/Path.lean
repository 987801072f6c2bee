import TestDouble.Text.Split

/-!
# Paths

A path as the names on the way, for which empty parts and single dots mean nothing. Two dots stay,
since the directory that they lead out of may be a different one for every file system.
-/

namespace TestDouble

structure Path where
  /-- The slashes a path from the root begins with: one, or exactly two. -/
  root : String := ""
  parts : List String := []
  deriving DecidableEq, Repr

namespace Path

def ofText (text : String) : Path where
  root :=
    match text.toList.takeWhile (· = '/') with
    | [] => ""
    | ['/', '/'] => "//"
    | _ => "/"
  parts :=
    ((Text.splitWhere (· = '/') text.toList).map String.ofList).filter fun part ↦
      part ≠ "" && part ≠ "."

def text (path : Path) : String :=
  if path.root = "" && path.parts.isEmpty then "."
  else path.root ++ String.intercalate "/" path.parts

/-- The path that begins where another one ends, unless it begins at the root. -/
def append (base path : Path) : Path :=
  if path.root = "" then { base with parts := base.parts ++ path.parts } else path

/-- The path without its last part. -/
def parent (path : Path) : Path :=
  { path with parts := path.parts.dropLast }

end Path

end TestDouble
