import TestDouble.Proofs.Mock.Alone
import TestDouble.Proofs.Recording.History
import TestDouble.Proofs.Recording.Override

/-!
# Arguments passed by keyword

The first arguments of a call are passed by position, each of the others under the label or the name
of its parameter. The parameters take their arguments in turn, and a parameter looks for its label
before it looks for its name. So a parameter whose argument is passed under its name takes the
argument of a later parameter if that one is passed under what is the label here.

Nothing else goes wrong between parameters: what an earlier parameter took is gone, and a parameter
whose argument is passed under its label looks no further. Apart from that, two keywords never reach
the parameters at all, since the call itself has parameters of those names.
-/

namespace TestDouble

namespace Recording

/-! ## Ways to pass arguments -/

/-- A way to pass the arguments of a method: the first ones by position, each of the others under
the label or the name of its parameter, and no two of them under the same key. -/
structure Passing (method : Method) where
  count : Nat
  keys : List String
  count_le : count ≤ method.parameters.length
  named : List.Forall₂ (fun key parameter ↦ key = parameter.label ∨ key = parameter.name) keys
    (method.parameters.drop count)
  nodup : keys.Nodup

namespace Passing

variable {method : Method}

/-- The keywords carry the arguments that are not passed by position, in whatever order. -/
def Carries (passing : Passing method) (arguments : List Value)
    (keywords : List (String × Value)) : Prop :=
  keywords.Perm (passing.keys.zip (arguments.drop passing.count))

/-- No parameter takes what is passed to a later one: its own argument is passed under its label, or
its label is not the key of the later one. -/
def Apart (keys : List String) (parameters : List Parameter) : Prop :=
  (keys.zip parameters).Pairwise fun first later ↦
    first.1 = first.2.label ∨ first.2.label ≠ later.1

/-- The keys lead every argument to its own parameter. -/
structure Direct (passing : Passing method) : Prop where
  free : ∀ key ∈ passing.keys, key ∉ reservedKeywords
  apart : Apart passing.keys (method.parameters.drop passing.count)

theorem apart_cons_iff {key : String} {keys : List String} {parameter : Parameter}
    {parameters : List Parameter} (hlength : keys.length = parameters.length) :
    Apart (key :: keys) (parameter :: parameters) ↔
      (key = parameter.label ∨ parameter.label ∉ keys) ∧ Apart keys parameters := by
  rw [Apart, List.zip_cons_cons, List.pairwise_cons, Apart]
  refine and_congr_left fun _ ↦ ?_
  have hkeys : (keys.zip parameters).map Prod.fst = keys :=
    List.map_fst_zip (Nat.le_of_eq hlength)
  have hmem :
      parameter.label ∈ keys ↔ ∃ later ∈ keys.zip parameters, later.1 = parameter.label := by
    rw [← List.mem_map, hkeys]
  by_cases hown : key = parameter.label
  · simp only [hown, true_or, implies_true]
  · simp only [hown, false_or, hmem, not_exists, not_and, ne_comm, ne_eq]

end Passing

/-! ## One parameter -/

/-- A parameter whose argument is there takes what has its label as key, and its argument only if
there is no such thing. -/
theorem keyword?_eq {parameter : Parameter} {keywords : List (String × Value)} {key : String}
    (hkey : key = parameter.label ∨ key = parameter.name) (hmem : key ∈ keywords.map Prod.fst) :
    keyword? parameter keywords =
      some (if parameter.label ∈ keywords.map Prod.fst then parameter.label else key) := by
  by_cases hlabel : parameter.label ∈ keywords.map Prod.fst
  · rw [keyword?, List.find?_cons, isSome_lookup_iff.mpr hlabel, if_pos hlabel]
  · obtain rfl : key = parameter.name := hkey.resolve_left fun heq ↦ hlabel (heq ▸ hmem)
    have habsent : (keywords.lookup parameter.label).isSome = false :=
      Bool.eq_false_iff.mpr (mt isSome_lookup_iff.mp hlabel)
    rw [keyword?, List.find?_cons, habsent, List.find?_cons, isSome_lookup_iff.mpr hmem,
      if_neg hlabel]

theorem bindKeywords_cons_eq_ok_iff {selector : String} {keywords rest : List (String × Value)}
    {parameter : Parameter} {parameters : List Parameter} {value : Value} {values : List Value} :
    bindKeywords selector keywords (parameter :: parameters) = .ok (value :: values, rest) ↔
      ∃ key, keyword? parameter keywords = some key ∧ keywords.lookup key = some value ∧
        bindKeywords selector (keywords.filter (·.1 ≠ key)) parameters = .ok (values, rest) := by
  rw [bindKeywords]
  split
  · next hnone => simp [hnone]
  · next key hkey =>
    have hsome := List.find?_some (p := fun key ↦ (keywords.lookup key).isSome) hkey
    obtain ⟨found, hfound⟩ := Option.isSome_iff_exists.mp hsome
    simp only [Except.bind_eq_ok_iff, hkey, Option.some.injEq, exists_eq_left', hfound,
      Option.getD_some]
    constructor
    · rintro ⟨⟨values', rest'⟩, hvalues, hpair⟩
      cases hpair
      exact ⟨rfl, hvalues⟩
    · rintro ⟨rfl, hvalues⟩
      exact ⟨_, hvalues, rfl⟩

/-! ## All parameters -/

section

variable {selector : String} {keys : List String} {parameters : List Parameter}
  {arguments : List Value}

private theorem filter_zip_of_not_mem {key : String} (hkey : key ∉ keys) :
    (keys.zip arguments).filter (·.1 ≠ key) = keys.zip arguments := by
  refine List.filter_eq_self.mpr fun entry hentry ↦ ?_
  have hne : entry.1 ≠ key := fun heq ↦ hkey (heq ▸ (List.of_mem_zip hentry).1)
  simpa using hne

/-- If no parameter takes what is passed to another, each takes its own argument. -/
theorem bindKeywords_of_apart
    (hnamed : List.Forall₂ (fun key parameter ↦ key = parameter.label ∨ key = parameter.name)
      keys parameters)
    (hnodup : keys.Nodup) (hapart : Passing.Apart keys parameters)
    (hlength : arguments.length = parameters.length) {keywords : List (String × Value)}
    (hcarries : keywords.Perm (keys.zip arguments)) :
    bindKeywords selector keywords parameters = .ok (arguments, []) := by
  -- What is left after each parameter carries the arguments of the parameters behind it.
  induction hnamed generalizing arguments keywords with
  | nil =>
    obtain rfl := List.length_eq_zero_iff.mp hlength
    obtain rfl := List.perm_nil.mp hcarries
    rfl
  | @cons key parameter keys parameters hkey hnamed ih =>
    obtain ⟨value, arguments, rfl⟩ := List.exists_cons_of_length_eq_add_one hlength
    rw [List.length_cons, List.length_cons, Nat.add_right_cancel_iff] at hlength
    obtain ⟨hfresh, hnodup'⟩ := List.nodup_cons.mp hnodup
    obtain ⟨htakes, hapart⟩ := (Passing.apart_cons_iff hnamed.length_eq).mp hapart
    have hkeys : (keywords.map Prod.fst).Perm (key :: keys) := by
      have hzip := hcarries.map Prod.fst
      rwa [List.map_fst_zip (by simp [hnamed.length_eq, hlength])] at hzip
    refine bindKeywords_cons_eq_ok_iff.mpr ⟨key, ?_, ?_, ih hnodup' hapart hlength ?_⟩
    · rw [keyword?_eq hkey (hkeys.mem_iff.mpr List.mem_cons_self)]
      rcases htakes with rfl | htakes
      · rw [ite_self]
      · by_cases hown : parameter.label = key
        · rw [hown, ite_self]
        · rw [if_neg fun hmem ↦ (List.mem_cons.mp (hkeys.mem_iff.mp hmem)).elim hown htakes]
    · refine (lookup_eq_some_iff_mem (hkeys.nodup_iff.mpr hnodup)).mpr ?_
      exact hcarries.mem_iff.mpr List.mem_cons_self
    · have hrest := hcarries.filter (·.1 ≠ key)
      rwa [List.zip_cons_cons, List.filter_cons_of_neg (by simp), filter_zip_of_not_mem hfresh]
        at hrest

/-- Arguments that can be told apart show whether a parameter takes what is passed to another. -/
theorem apart_of_bindKeywords
    (hnamed : List.Forall₂ (fun key parameter ↦ key = parameter.label ∨ key = parameter.name)
      keys parameters)
    (hnodup : keys.Nodup) (hlength : arguments.length = parameters.length)
    (hdistinct : arguments.Nodup)
    (h : bindKeywords selector (keys.zip arguments) parameters = .ok (arguments, [])) :
    Passing.Apart keys parameters := by
  induction hnamed generalizing arguments with
  | nil => exact List.Pairwise.nil
  | @cons key parameter keys parameters hkey hnamed ih =>
    obtain ⟨value, arguments, rfl⟩ := List.exists_cons_of_length_eq_add_one hlength
    rw [List.length_cons, List.length_cons, Nat.add_right_cancel_iff] at hlength
    obtain ⟨hfresh, hnodup'⟩ := List.nodup_cons.mp hnodup
    obtain ⟨hvalue, hdistinct⟩ := List.nodup_cons.mp hdistinct
    obtain ⟨taken, htaken, hlookup, hrest⟩ := bindKeywords_cons_eq_ok_iff.mp h
    -- The arguments are distinct, so the value shows under which keyword it was passed.
    obtain rfl : taken = key := by
      by_contra hne
      rw [List.zip_cons_cons, lookup_cons_eq_ite, if_neg hne] at hlookup
      obtain ⟨before, after, hzip, -⟩ := List.lookup_eq_some_iff.mp hlookup
      have hmem : (taken, value) ∈ keys.zip arguments := by simp [hzip]
      exact hvalue (List.of_mem_zip hmem).2
    have hkeys : ((taken :: keys).zip (value :: arguments)).map Prod.fst = taken :: keys :=
      List.map_fst_zip (by simp [hnamed.length_eq, hlength])
    refine (Passing.apart_cons_iff hnamed.length_eq).mpr ⟨?_, ?_⟩
    · rw [keyword?_eq hkey (hkeys ▸ List.mem_cons_self), hkeys] at htaken
      by_cases hlabel : parameter.label ∈ taken :: keys
      · rw [if_pos hlabel] at htaken
        exact .inl (Option.some.inj htaken).symm
      · exact .inr fun hmem ↦ hlabel (List.mem_cons_of_mem _ hmem)
    · rw [List.zip_cons_cons, List.filter_cons_of_neg (by simp), filter_zip_of_not_mem hfresh]
        at hrest
      exact ih hnodup' hlength hdistinct hrest

end

/-! ## Calls -/

theorem bind_take_eq_ok_iff {method : Method} {arguments : List Value}
    (hlength : arguments.length = method.parameters.length) {count : Nat}
    (hcount : count ≤ method.parameters.length) {keywords : List (String × Value)} :
    bind method (arguments.take count) keywords = .ok arguments ↔
      bindKeywords method.selector keywords (method.parameters.drop count) =
        .ok (arguments.drop count, []) := by
  have htake : (arguments.take count).length = count := by
    rw [List.length_take, hlength, Nat.min_eq_left hcount]
  have hsplit : arguments.take count ++ arguments.drop count = arguments :=
    List.take_append_drop count arguments
  rw [bind, htake, if_neg (Nat.not_lt.mpr hcount)]
  simp only [Except.bind_eq_ok_iff]
  constructor
  · rintro ⟨⟨values, rest⟩, hbind, hclose⟩
    cases rest with
    | nil =>
      have hvalues :
          arguments.take count ++ values = arguments.take count ++ arguments.drop count :=
        (Except.ok.inj hclose).trans hsplit.symm
      rwa [List.append_cancel_left hvalues] at hbind
    | cons _ _ => cases hclose
  · intro hbind
    exact ⟨_, hbind, congrArg Except.ok hsplit⟩

theorem target_eq_ok_iff_of_mem {mock : Mock} (h : mock.fields.Nodup) {double : MethodDouble}
    (hmem : double ∈ mock.methods) {positional arguments : List Value}
    {keywords : List (String × Value)} :
    target mock double.name positional keywords = .ok (double, arguments) ↔
      (∀ entry ∈ keywords, entry.1 ∉ reservedKeywords) ∧
        bind double.method positional keywords = .ok arguments := by
  rw [target_eq_ok_iff h, bound?, Option.ite_none_right_eq_some, Except.toOption_eq_some_iff]
  simp only [hmem, true_and]

section Target

variable {mock : Mock} (hnodup : mock.fields.Nodup) {double : MethodDouble}
  (hmem : double ∈ mock.methods) {passing : Passing double.method} {arguments : List Value}
  (hlength : arguments.length = double.method.parameters.length)

variable (passing) in
include hlength in
private theorem length_drop_arguments : (arguments.drop passing.count).length =
    (double.method.parameters.drop passing.count).length := by
  rw [List.length_drop, List.length_drop, hlength]

include hnodup hmem hlength in
/-- Where no parameter takes what is passed to another, a call binds every argument to its own. -/
theorem target_eq_of_direct (hdirect : passing.Direct) {keywords : List (String × Value)}
    (hcarries : passing.Carries arguments keywords) :
    target mock double.name (arguments.take passing.count) keywords = .ok (double, arguments) := by
  refine (target_eq_ok_iff_of_mem hnodup hmem).mpr ⟨fun entry hentry ↦ ?_, ?_⟩
  · exact hdirect.free _ (List.of_mem_zip (hcarries.mem_iff.mp hentry)).1
  · exact (bind_take_eq_ok_iff hlength passing.count_le).mpr
      (bindKeywords_of_apart passing.named passing.nodup hdirect.apart
        (length_drop_arguments passing hlength) hcarries)

include hnodup hmem hlength in
/-- A single call is enough to show this, if its arguments can be told apart. -/
theorem direct_of_target (hdistinct : arguments.Nodup)
    (htarget : target mock double.name (arguments.take passing.count)
      (passing.keys.zip (arguments.drop passing.count)) = .ok (double, arguments)) :
    passing.Direct := by
  obtain ⟨hfree, hbind⟩ := (target_eq_ok_iff_of_mem hnodup hmem).mp htarget
  have hrest := length_drop_arguments passing hlength
  have hkeys : (passing.keys.zip (arguments.drop passing.count)).map Prod.fst = passing.keys :=
    List.map_fst_zip (Nat.le_of_eq (passing.named.length_eq.trans hrest.symm))
  refine ⟨fun key hkey ↦ ?_, ?_⟩
  · rw [← hkeys] at hkey
    obtain ⟨entry, hentry, rfl⟩ := List.mem_map.mp hkey
    exact hfree entry hentry
  · exact apart_of_bindKeywords passing.named passing.nodup hrest
      (hdistinct.sublist (List.drop_sublist _ _))
      ((bind_take_eq_ok_iff hlength passing.count_le).mp hbind)

end Target

/-- The ways to pass arguments under which every call is the call with all arguments passed by
position, whatever they are and in whatever order the keywords stand. -/
theorem binds_iff_direct {style : Style} {known : Catalogue} {protocol : Protocol} {mock : Mock}
    (h : Mock.ofProtocol style known protocol = .ok mock) {double : MethodDouble}
    (hmem : double ∈ mock.methods) (passing : Passing double.method) :
    (∀ arguments keywords, arguments.length = double.method.parameters.length →
      passing.Carries arguments keywords →
      target mock double.name (arguments.take passing.count) keywords = .ok (double, arguments) ∧
        ∀ (recording : Recording) (react : Reaction),
          recording.invoke mock double.name (arguments.take passing.count) keywords react =
            recording.invoke mock double.name arguments [] react) ↔
      passing.Direct := by
  have hnodup := Mock.fields_nodup h
  constructor
  · intro hbinds
    -- Arguments that can be told apart decide it for all arguments.
    let arguments : List Value :=
      (List.range double.method.parameters.length).map fun index ↦ .number (Int.ofNat index)
    have hlength : arguments.length = double.method.parameters.length := by simp [arguments]
    have hdistinct : arguments.Nodup := by
      refine List.nodup_range.map fun index index' heq ↦ ?_
      exact Int.ofNat.inj (Value.number.inj heq)
    obtain ⟨htarget, -⟩ := hbinds arguments _ hlength (.refl _)
    exact direct_of_target hnodup hmem hlength hdistinct htarget
  · intro hdirect arguments keywords hlength hcarries
    have htarget := target_eq_of_direct hnodup hmem hlength hdirect hcarries
    have hpositional : target mock double.name arguments [] = .ok (double, arguments) :=
      (target_eq_ok_iff_of_mem hnodup hmem).mpr
        ⟨fun _ hentry ↦ absurd hentry List.not_mem_nil, bind_positional hlength⟩
    refine ⟨htarget, fun recording react ↦ ?_⟩
    rw [invoke, invoke, htarget, hpositional]

/-- A requirement of which one parameter has the label that is the other one's name. -/
def crossed : String :=
  "protocol P \x7b\nfunc move(from to: Int, by from: Int)\n\x7d"

/-- Passed under the names only, the second argument of the requirement goes to the first parameter,
which then has two of them. -/
theorem exists_crossed : ∃ protocol mock double,
    Protocol.ofText crossed = .ok protocol ∧ Mock.ofProtocol .standard .empty protocol = .ok mock ∧
      double ∈ mock.methods ∧
      double.method.parameters.map (fun parameter ↦ (parameter.label, parameter.name)) =
        [("from", "to"), ("by", "from")] ∧
      (target mock double.name [] [("to", .number 1), ("from", .number 2)]).isOk = false := by
  have hfound : ((Protocol.ofText crossed).toOption.bind Mock.ofAlone?).any (fun mock ↦
      mock.methods.any fun double ↦
        double.method.parameters.map (fun parameter ↦ (parameter.label, parameter.name)) =
            [("from", "to"), ("by", "from")] &&
          !(target mock double.name [] [("to", .number 1), ("from", .number 2)]).isOk) = true := by
    decide +kernel
  obtain ⟨protocol, mock, hprotocol, hmock, hdouble⟩ := Mock.exists_of_any_ofAlone? hfound
  simp only [List.any_eq_true, Bool.and_eq_true, decide_eq_true_eq, Bool.not_eq_true'] at hdouble
  obtain ⟨double, hmem, hnames, hrefused⟩ := hdouble
  exact ⟨protocol, mock, double, hprotocol, hmock, hmem, hnames, hrefused⟩

/-- A way to pass all arguments of this requirement by keyword. -/
def Passing.ofCrossed {method : Method} (keys : List String) (hnodup : keys.Nodup)
    (hnames : method.parameters.map (fun parameter ↦ (parameter.label, parameter.name)) =
      [("from", "to"), ("by", "from")])
    (hkeys : List.Forall₂ (fun key (names : String × String) ↦ key = names.1 ∨ key = names.2) keys
      [("from", "to"), ("by", "from")]) : Passing method where
  count := 0
  keys
  count_le := Nat.zero_le _
  named := by
    rw [← hnames, List.forall₂_map_right_iff] at hkeys
    exact hkeys
  nodup := hnodup

/-- The second argument is passed under its label, so that no other parameter looks for it. -/
theorem binds_iff_direct_crossed : ∃ protocol mock double, ∃ passing : Passing double.method,
    Protocol.ofText crossed = .ok protocol ∧ Mock.ofProtocol .standard .empty protocol = .ok mock ∧
      passing.keys = ["to", "by"] ∧
      target mock double.name [] [("by", .number 2), ("to", .number 1)] =
        .ok (double, [.number 1, .number 2]) := by
  obtain ⟨protocol, mock, double, hprotocol, hmock, hmem, hnames, -⟩ := exists_crossed
  let passing : Passing double.method :=
    .ofCrossed ["to", "by"] (by decide) hnames (by simp)
  have hparameters : ∃ first second, double.method.parameters = [first, second] ∧
      first.label = "from" ∧ second.label = "by" := by
    obtain ⟨first, rest, hfirst, hnames, hrest⟩ := List.map_eq_cons_iff.mp hnames
    obtain ⟨second, rfl, hsecond⟩ := List.map_eq_singleton_iff.mp hrest
    exact ⟨first, second, hfirst, (Prod.mk.inj hnames).1, (Prod.mk.inj hsecond).1⟩
  obtain ⟨first, second, hparameters, hfirst, hsecond⟩ := hparameters
  have hdirect : passing.Direct := by
    refine ⟨show ∀ key ∈ ["to", "by"], key ∉ reservedKeywords by decide, ?_⟩
    rw [show passing.count = 0 from rfl, List.drop_zero, hparameters]
    refine (Passing.apart_cons_iff rfl).mpr ⟨.inr (by rw [hfirst]; decide), ?_⟩
    exact (Passing.apart_cons_iff rfl).mpr ⟨.inl hsecond.symm, List.Pairwise.nil⟩
  refine ⟨protocol, mock, double, passing, hprotocol, hmock, rfl, ?_⟩
  exact ((binds_iff_direct hmock hmem passing).mpr hdirect [.number 1, .number 2] _
    (by rw [hparameters]; rfl) (List.Perm.swap _ _ _)).1

/-- Both arguments are passed under the names of their parameters. -/
theorem not_forall_binds : ¬ ∀ (source : String) (protocol : Protocol) (mock : Mock),
    Protocol.ofText source = .ok protocol → Mock.ofProtocol .standard .empty protocol = .ok mock →
      ∀ double ∈ mock.methods, ∀ (passing : Passing double.method) (arguments : List Value)
        (keywords : List (String × Value)),
        arguments.length = double.method.parameters.length → passing.Carries arguments keywords →
          target mock double.name (arguments.take passing.count) keywords =
            .ok (double, arguments) := by
  intro h
  obtain ⟨protocol, mock, double, hprotocol, hmock, hmem, hnames, hrefused⟩ := exists_crossed
  have hlength : double.method.parameters.length = 2 := by
    simpa using congrArg List.length hnames
  have htarget := h crossed protocol mock hprotocol hmock double hmem
    (.ofCrossed ["to", "from"] (by decide) hnames (by simp)) [.number 1, .number 2]
    [("to", .number 1), ("from", .number 2)] hlength.symm (.refl _)
  change target mock double.name [] _ = _ at htarget
  rw [htarget] at hrefused
  cases hrefused

end Recording

end TestDouble
