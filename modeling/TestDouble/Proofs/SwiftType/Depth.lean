import TestDouble.Proofs.Reader.Congruence
import TestDouble.Proofs.SwiftType.Compositional

/-!
# The depth of types is not bounded

Types are read with a bound on how deep they may lie in each other, the number of tokens. The bound
is never met: a rule of the grammar reads the types inside it only behind a token of its own, so it
makes no difference what the reader for these does with as many tokens as the rule itself has. So
the reader for types solves the equation that the grammar is, without a bound.
-/

namespace TestDouble

open Reader

/-! ## Rules -/

namespace SwiftType

section Rules

variable {type type' : Reader SwiftType} {scope : Scope} {n : Nat}
  (h : ∀ tokens, tokens.length < n → type scope tokens = type' scope tokens)
include h

theorem element_congr {tokens : List Token} (hlt : tokens.length < n) :
    element type scope tokens = element type' scope tokens := by
  refine bind_congr_right fun label mid hlabel ↦ bind_congr_left (h mid ?_)
  exact Nat.lt_of_le_of_lt (recedes_receding.elementLabel hlabel) hlt

theorem tuple_congr {tokens : List Token} (hle : tokens.length ≤ n) :
    tuple type scope tokens = tuple type' scope tokens := by
  refine bind_congr_right fun opener mid hopener ↦ bind_congr_left ?_
  have hmid := Nat.lt_of_lt_of_le (takes_expect hopener) hle
  refine repeatFrom_congr (fun _ back hback ↦ bind_congr_right fun ahead _ hahead ↦ ?_) 0
  obtain ⟨rfl, rfl⟩ := reads_ahead_iff.mp hahead
  have helement := element_congr h (Nat.lt_of_le_of_lt hback hmid)
  refine ite_congr_reader (fun _ ↦ rfl) fun _ ↦ ite_congr_reader (fun _ ↦ ?_) fun _ ↦ ?_
  · exact bind_congr_right fun _ _ hfail ↦ (not_reads_fail hfail).elim
  · exact bind_congr_left helement

theorem function_congr {tokens : List Token} (lead : String) (parameters : Component)
    (hle : tokens.length ≤ n) :
    function type lead parameters scope tokens = function type' lead parameters scope tokens := by
  refine bind_congr_right fun effects mid heffects ↦ bind_congr_right fun arrow back harrow ↦
    bind_congr_left (h back ?_)
  have hmid := recedes_receding.repeated recedes_receding.functionEffect
    recedes_receding.advances_functionEffect heffects
  exact Nat.lt_of_lt_of_le (takes_expect harrow) (Nat.le_trans hmid hle)

variable (hrecedes : Recedes type)
include hrecedes

theorem genericArguments_congr {tokens : List Token} (hle : tokens.length ≤ n) :
    genericArguments type scope tokens = genericArguments type' scope tokens := by
  refine bind_congr_right fun ahead mid hahead ↦ ?_
  obtain ⟨rfl, rfl⟩ := reads_ahead_iff.mp hahead
  refine ite_congr_reader (fun hadjoins ↦ bind_congr_right fun _ mid hskip ↦ ?_) fun _ ↦ rfl
  rcases tokens with _ | ⟨token, tokens⟩
  · cases hadjoins
  obtain rfl := reads_skip_iff.mp hskip
  exact bind_congr_left (separated_congr hrecedes fun mid hmid ↦
    h mid (Nat.lt_of_lt_of_le (Nat.lt_succ_of_le hmid) hle))

theorem collection_congr {tokens : List Token} (hne : tokens ≠ []) (hle : tokens.length ≤ n) :
    collection type scope tokens = collection type' scope tokens := by
  refine bind_congr_right fun _ mid hskip ↦ ?_
  have hmid : mid.length < n := by
    rw [← reads_skip_iff.mp hskip, List.length_tail]
    exact Nat.lt_of_lt_of_le (Nat.sub_one_lt (mt List.length_eq_zero_iff.mp hne)) hle
  refine bind_congr (h mid hmid) fun first back hfirst ↦ bind_congr_right fun colon rest hcolon ↦ ?_
  refine ite_congr_reader (fun _ ↦ bind_congr_left (h rest ?_)) fun _ ↦ rfl
  have hrest := recedes_receding.accept ":" hcolon
  exact Nat.lt_of_le_of_lt (Nat.le_trans hrest (hrecedes hfirst)) hmid

theorem primary_congr {tokens : List Token} (hle : tokens.length ≤ n) :
    primary type scope tokens = primary type' scope tokens := by
  refine bind_congr_right fun ahead mid hahead ↦ ?_
  obtain ⟨rfl, rfl⟩ := reads_ahead_iff.mp hahead
  cases tokens with
  | nil => rfl
  | cons token rest =>
    refine ite_congr_reader (fun _ ↦ tuple_congr h hle) fun _ ↦ ite_congr_reader
      (fun _ ↦ collection_congr h hrecedes (List.cons_ne_nil _ _) hle) fun _ ↦
        ite_congr_reader (fun _ ↦ bind_congr_right fun _ mid hskip ↦ ?_) fun _ ↦ rfl
    obtain rfl := reads_skip_iff.mp hskip
    exact bind_congr_left (genericArguments_congr h hrecedes (Nat.le_of_succ_le hle))

theorem suffix_congr {tokens : List Token} (hle : tokens.length ≤ n) :
    suffix type scope tokens = suffix type' scope tokens := by
  refine bind_congr_right fun ahead mid hahead ↦ ?_
  obtain ⟨rfl, rfl⟩ := reads_ahead_iff.mp hahead
  rcases tokens with _ | ⟨token, _ | ⟨name, rest⟩⟩
  · rfl
  · rfl
  refine ite_congr_reader (fun _ ↦ rfl) fun _ ↦ ite_congr_reader (fun _ ↦ rfl) fun _ ↦
    ite_congr_reader (fun _ ↦ rfl) fun _ ↦ ite_congr_reader (fun _ ↦ ite_congr_reader
      (fun _ ↦ bind_congr_right fun _ mid hdot ↦ bind_congr_right fun _ back hname ↦ ?_)
        fun _ ↦ rfl) fun _ ↦ rfl
  obtain rfl := reads_skip_iff.mp hdot
  obtain rfl := reads_skip_iff.mp hname
  exact bind_congr_left (genericArguments_congr h hrecedes
    (Nat.le_of_succ_le (Nat.le_of_succ_le hle)))

theorem component_congr {tokens : List Token} (hle : tokens.length ≤ n) :
    component type scope tokens = component type' scope tokens := by
  refine bind_congr (primary_congr h hrecedes hle) fun primary mid hprimary ↦ bind_congr_left ?_
  have hmid := recedes_receding.primary hrecedes hprimary
  exact repeatFrom_congr (fun _ back hback ↦
    suffix_congr h hrecedes (Nat.le_trans hback (Nat.le_trans hmid hle))) 0

theorem bare_congr {tokens : List Token} (hle : tokens.length ≤ n) :
    bare type scope tokens = bare type' scope tokens := by
  refine bind_congr_right fun lead mid hlead ↦ bind_congr_right fun _ back hsees ↦ ?_
  have hmid := Nat.le_trans (recedes_receding.lead hlead) hle
  have hback := Nat.le_trans (recedes_receding.sees "(" hsees) hmid
  refine bind_congr (component_congr h hrecedes hback) fun first rest hfirst ↦
    bind_congr_right fun ahead rest' hahead ↦ ?_
  have hrest := Nat.le_trans (recedes_receding.component hrecedes hfirst) hback
  obtain ⟨rfl, rfl⟩ := reads_ahead_iff.mp hahead
  refine ite_congr_reader (fun _ ↦ function_congr h lead first hrest) fun _ ↦
    bind_congr_right fun _ rest' hsees ↦ ite_congr_reader (fun _ ↦ bind_congr_left ?_) fun _ ↦ rfl
  have hrest := Nat.le_trans (recedes_receding.sees "&" hsees) hrest
  refine repeatFrom_congr (fun _ tail htail ↦ bind_congr_right fun _ tail' haccept ↦ ?_) 0
  have htail := Nat.le_trans (recedes_receding.accept "&" haccept) (Nat.le_trans htail hrest)
  exact ite_congr_reader (fun _ ↦ bind_congr_left (component_congr h hrecedes htail)) fun _ ↦ rfl

theorem annotated_congr {tokens : List Token} (hle : tokens.length ≤ n) :
    annotated type scope tokens = annotated type' scope tokens := by
  refine bind_congr_right fun specifiers mid hspecifiers ↦ bind_congr_left ?_
  have hmid := recedes_receding.repeated recedes_receding.specifier
    recedes_receding.advances_specifier hspecifiers
  exact bare_congr h hrecedes (Nat.le_trans hmid hle)

end Rules

/-! ## The equation -/

variable {scope : Scope} {tokens : List Token} {depth : Nat}

theorem recedes_readWithin (depth : Nat) : Recedes (readWithin depth) := by
  induction depth with
  | zero => exact recedes_receding.missing
  | succ depth ih => exact recedes_receding.annotated ih

theorem annotated_nil (type : Reader SwiftType) (scope : Scope) :
    annotated type scope [] = missing scope [] := by
  -- Nothing stands in front of a type here, and so no type inside is ever asked for.
  have hspecifiers : repeated specifier scope [] = ⟨.ok [], [], []⟩ := by
    rw [repeated, numbered, repeatFrom]
    rfl
  rw [annotated]
  simp only [bind, hspecifiers]
  rfl

/-- A bound that is no less than the number of tokens can as well be greater. -/
theorem readWithin_succ (hle : tokens.length ≤ depth) :
    readWithin (depth + 1) scope tokens = readWithin depth scope tokens := by
  induction depth generalizing tokens with
  | zero =>
    obtain rfl := List.eq_nil_of_length_eq_zero (Nat.le_zero.mp hle)
    exact annotated_nil _ scope
  | succ depth ih =>
    exact annotated_congr (fun mid hmid ↦ ih (Nat.le_of_lt_succ hmid)) (recedes_readWithin _) hle

theorem readWithin_eq_read (hle : tokens.length ≤ depth) :
    readWithin depth scope tokens = read scope tokens := by
  induction hle with
  | refl => rfl
  | step hle ih => exact (readWithin_succ hle).trans ih

/-- A type is what the grammar says, with types inside it. -/
theorem read_eq_annotated : read = annotated read := by
  funext scope tokens
  rw [← readWithin_eq_read (Nat.le_succ tokens.length)]
  exact annotated_congr (fun mid hmid ↦ readWithin_eq_read (Nat.le_of_lt hmid))
    (recedes_readWithin _) (Nat.le_refl _)

end SwiftType

end TestDouble
