import TestDouble.Notice
import TestDouble.Protocol.Basic

/-!
# Refinement

A protocol that refines others requires what they require. The protocols it refines, directly or
not, are visited depth first in the order of the inheritance clauses, each once; a name that no
known protocol has is listed and leads nowhere. A requirement declared more than once is kept once,
where it was met first.

The visit keeps an agenda of names still to be followed. Every step either shortens the agenda or
visits a known protocol for the first time, and that is why it ends, on cycles too.
-/

namespace TestDouble

/-- Known protocols by name. An earlier entry hides later ones of the same name. -/
abbrev Catalogue := List (String × Protocol)

namespace Catalogue

def empty : Catalogue := []

/-- The catalogue with one more protocol, which hides an older one of the same name. -/
def add (known : Catalogue) (protocol : Protocol) : Catalogue :=
  (protocol.name, protocol) :: known

def ofList (protocols : List Protocol) : Catalogue :=
  protocols.foldl add empty

/-- How many entries have names that have not been visited. -/
def unvisited (known : Catalogue) (visited : List String) : Nat :=
  known.countP fun entry ↦ !visited.contains entry.1

theorem unvisited_cons_le (known : Catalogue) (visited : List String) (name : String) :
    known.unvisited (name :: visited) ≤ known.unvisited visited := by
  refine List.countP_mono_left fun entry _ h ↦ ?_
  simp_all

theorem unvisited_cons_lt {known : Catalogue} {visited : List String} {name : String}
    {protocol : Protocol} (hknown : known.lookup name = some protocol)
    (hnew : visited.contains name = false) :
    known.unvisited (name :: visited) < known.unvisited visited := by
  induction known with
  | nil => simp at hknown
  | cons entry known ih =>
    obtain ⟨key, value⟩ := entry
    have hle := unvisited_cons_le known visited name
    simp only [unvisited] at hle ih ⊢
    rw [List.countP_cons, List.countP_cons]
    by_cases h : name = key
    · subst h
      have hself : (name :: visited).contains name = true := by simp
      rw [hself, hnew]
      simp only [Bool.not_true, Bool.not_false, if_true, Bool.false_eq_true, if_false]
      omega
    · have hbeq : (name == key) = false := by simpa using h
      have := ih (by simpa only [List.lookup_cons, hbeq] using hknown)
      have hne : key ≠ name := fun h' ↦ h h'.symm
      by_cases hv : visited.contains key <;> simp_all

end Catalogue

/-! ## Visiting -/

/-- What has been met while following inheritance clauses. -/
structure Ancestry where
  /-- The protocols visited, in the order of the visits. -/
  found : List Protocol := []
  /-- The names met, each once and in the order of first mention. -/
  listed : List String := []
  /-- The names that are not visited again. -/
  visited : List String

namespace Ancestry

/-- Lists a name that is new. A protocol does not list itself. -/
def mention (ancestry : Ancestry) (self name : String) : Ancestry :=
  if ancestry.listed.contains name || name = self then ancestry
  else { ancestry with listed := ancestry.listed ++ [name] }

@[simp] theorem visited_mention (ancestry : Ancestry) (self name : String) :
    (ancestry.mention self name).visited = ancestry.visited := by
  unfold mention
  split <;> rfl

/-- Follows the names on the agenda. -/
def follow (known : Catalogue) (self : String) : List String → Ancestry → Ancestry
  | [], ancestry => ancestry
  | name :: agenda, ancestry =>
    match _hknown : known.lookup name, _hvisited : ancestry.visited.contains name with
    | some parent, false =>
      let ancestry := ancestry.mention self name
      follow known self (parent.inherited ++ agenda)
        { ancestry with
          found := ancestry.found ++ [parent]
          visited := name :: ancestry.visited }
    | _, _ => follow known self agenda (ancestry.mention self name)
termination_by agenda ancestry => (known.unvisited ancestry.visited, agenda.length)
decreasing_by
  · rw [visited_mention]
    exact .left _ _ (Catalogue.unvisited_cons_lt ‹_› ‹_›)
  · rw [visited_mention]
    exact .right _ (Nat.lt_succ_self _)

end Ancestry

/-! ## Merging -/

/-- The items that are the first ones with their key, where `seen` holds the keys before them. -/
def distinctFrom [BEq κ] (key : α → κ) (seen : List κ) : List α → List α
  | [] => []
  | item :: items =>
    if seen.contains (key item) then distinctFrom key seen items
    else item :: distinctFrom key (key item :: seen) items

def distinctBy [BEq κ] (key : α → κ) (items : List α) : List α :=
  distinctFrom key [] items

namespace Protocol

/-- What the inheritance clauses of a protocol lead to. -/
def ancestry (known : Catalogue) (protocol : Protocol) : Ancestry :=
  .follow known protocol.name protocol.inherited { visited := [protocol.name] }

/-- The protocol with the requirements of all protocols that it refines. Its own come first. Its
inheritance clause lists every name that was met. -/
def withInherited (known : Catalogue) (protocol : Protocol) : Protocol :=
  let ancestry := protocol.ancestry known
  let declared := protocol :: ancestry.found
  { protocol with
    methods := distinctBy (·.identity) (declared.flatMap (·.methods))
    properties := distinctBy (·.identity) (declared.flatMap (·.properties))
    associatedTypes := distinctBy (·.name) (declared.flatMap (·.associatedTypes))
    inherited := ancestry.listed }

/-- What there is to tell about the protocols that a protocol refines. -/
def ancestryNotices (known : Catalogue) (protocol : Protocol) : List Notice :=
  match (protocol.ancestry known).found.map (·.name) with
  | [] => []
  | names => [.refines protocol.name names]

end Protocol

end TestDouble
