import Mathlib.Data.List.TakeWhile
import TestDouble.Files.Tree
import TestDouble.Proofs.Except
import TestDouble.Proofs.List

/-!
# Writing into a tree

Where a path leads is a matter of its names alone; the tree decides only whether it can be followed
that far. Writing puts a file at that place and changes nothing else, and since it replaces no
directory, every path that could be followed before can still be followed.
-/

namespace TestDouble

/-- A text without slashes is one name, unless it means nothing in a path. -/
theorem Path.ofText_eq_of_plain {text : String} (hslash : '/' ∉ text.toList) (hempty : text ≠ "")
    (hdot : text ≠ ".") : Path.ofText text = { root := "", parts := [text] } := by
  have hroot : text.toList.takeWhile (· = '/') = [] := by
    rw [List.takeWhile_eq_nil_iff]
    intro hpos hhead
    exact hslash (of_decide_eq_true hhead ▸ List.getElem_mem hpos)
  have hparts : Text.splitWhere (· = '/') text.toList = [text.toList] :=
    Text.splitWhere_eq_singleton fun c hc ↦ decide_eq_false fun heq ↦ hslash (heq ▸ hc)
  simp [Path.ofText, hroot, hparts, String.ofList_toList, hempty, hdot]

namespace FileTree

variable {tree tree' : FileTree} {path : Path} {start goal other : Place} {names : List String}
  {node : Node} {text : String} {bytes : List UInt8}

/-! ## Places -/

/-- The place that a path leads to, if it can be followed. -/
def target (path : Path) : Place :=
  path.parts.foldl Place.step (if path.root = "" then [] else ["/"])

/-- Behind a path one name more leads one step further. -/
theorem target_append_of_plain {text : String} (hslash : '/' ∉ text.toList)
    (hname : text ∉ ["", ".", ".."]) :
    target (path.append (.ofText text)) = target path ++ [text] := by
  simp only [List.mem_cons, List.not_mem_nil, or_false, not_or] at hname
  obtain ⟨hempty, hdot, hdots⟩ := hname
  rw [Path.ofText_eq_of_plain hslash hempty hdot]
  simp [Path.append, target, List.foldl_append, Place.step, hdots]

private theorem eq_foldl_of_follow (h : tree.follow start names = .ok goal) :
    goal = names.foldl Place.step start := by
  induction names generalizing start with
  | nil => exact (Except.ok.inj h).symm
  | cons name names ih =>
    rw [follow] at h
    split at h
    · cases h
    · cases h
    · split at h
      · cases h
      · exact ih h

theorem eq_target_of_place (h : tree.place path = .ok goal) : goal = target path := by
  rw [FileTree.place] at h
  split at h
  · cases h
  · exact eq_foldl_of_follow h

/-- What is a directory in one tree is a directory in the other. -/
def KeepsDirectories (tree tree' : FileTree) : Prop :=
  ∀ place, tree.node? place = some .directory → tree'.node? place = some .directory

namespace KeepsDirectories

theorem follow (hkeeps : KeepsDirectories tree tree') (h : tree.follow start names = .ok goal) :
    tree'.follow start names = .ok goal := by
  induction names generalizing start with
  | nil => exact h
  | cons name names ih =>
    rw [FileTree.follow] at h ⊢
    split at h
    · cases h
    · cases h
    · next hnode =>
      rw [hkeeps _ hnode]
      split at h
      · cases h
      · next hname =>
        rw [if_neg hname]
        exact ih h

theorem place (hkeeps : KeepsDirectories tree tree') (h : tree.place path = .ok goal) :
    tree'.place path = .ok goal := by
  rw [FileTree.place] at h ⊢
  split at h
  · cases h
  · next hlength =>
    rw [if_neg hlength]
    exact hkeeps.follow h

end KeepsDirectories

/-! ## Putting -/

/-- What was put at a place is there, and elsewhere nothing has changed. -/
theorem node?_put (h : goal.isOuter = false) :
    (tree.put goal node).node? other = if other = goal then some node else tree.node? other := by
  simp only [node?, put, List.lookup_append, lookup_filter_ne]
  grind

/-! ## Reading and writing -/

private theorem isOuter_eq_false_of_node? (h : tree.node? goal ≠ some .directory) :
    goal.isOuter = false := by
  by_contra houter
  exact h (by rw [node?, if_pos (by simpa using houter)])

theorem read_eq_ok_iff :
    tree.read path = .ok bytes ↔
      tree.place path = .ok (target path) ∧ tree.node? (target path) = some (.file bytes) := by
  rw [read]
  constructor
  · intro h
    obtain ⟨goal, hgoal, h⟩ := Except.bind_eq_ok_iff.mp h
    obtain rfl := eq_target_of_place hgoal
    split at h
    · next found hnode =>
      obtain rfl := Except.ok.inj h
      exact ⟨hgoal, hnode⟩
    · cases h
    · cases h
  · rintro ⟨hgoal, hnode⟩
    rw [hgoal]
    simp only [bind, Except.bind, hnode]
    rfl

theorem write_eq_ok_iff :
    tree.write path text = .ok tree' ↔
      tree.place path = .ok (target path) ∧ tree.node? (target path) ≠ some .directory ∧
        tree' = tree.put (target path) (.file text.toUTF8.toList) := by
  rw [write]
  constructor
  · intro h
    obtain ⟨goal, hgoal, h⟩ := Except.bind_eq_ok_iff.mp h
    obtain rfl := eq_target_of_place hgoal
    split at h
    · cases h
    · next hnode => exact ⟨hgoal, hnode, (Except.ok.inj h).symm⟩
  · rintro ⟨hgoal, hnode, rfl⟩
    rw [hgoal]
    simp only [bind, Except.bind]
    rfl

/-- The text is at the place that the path leads to, and elsewhere nothing has changed. -/
theorem node?_write (h : tree.write path text = .ok tree') (place : Place) :
    tree'.node? place =
      if place = target path then some (.file text.toUTF8.toList) else tree.node? place := by
  obtain ⟨-, hnode, rfl⟩ := write_eq_ok_iff.mp h
  -- Places outside the tree count as directories, so the text has not gone to one of them.
  exact node?_put (isOuter_eq_false_of_node? hnode)

theorem keepsDirectories_of_write (h : tree.write path text = .ok tree') :
    KeepsDirectories tree tree' := by
  intro place hplace
  rw [node?_write h, if_neg]
  · exact hplace
  · rintro rfl
    exact (write_eq_ok_iff.mp h).2.1 hplace

end FileTree

end TestDouble
