import TestDouble.Proofs.Protocol.Visits

/-!
# Merging twice

A merged protocol lists every name that was met, so that merging it again follows names from the top
which were deep inside the clauses at first. They are still met in the same order. The first run
lists the names of one top-level visit right behind the name that it began with, and when the second
run comes to these, the same visit has just dealt with them: they stand for protocols that are
visited, or for none.

So what a run has come to is what following its own list comes to, and this is kept from one
top-level name to the next. The requirements that are merged the second time are those that were
kept, followed by requirements whose keys they already have.
-/

namespace TestDouble

variable {known : Catalogue} {protocol : Protocol}

/-! ## Following a list again -/

namespace Ancestry

variable {self name : String} {names agenda : List String} {ancestry : Ancestry}

/-- Names are followed one after the other, each with all that it leads to. -/
theorem follow_append (known : Catalogue) (self : String) (names agenda : List String)
    (ancestry : Ancestry) :
    follow known self (names ++ agenda) ancestry =
      follow known self agenda (follow known self names ancestry) := by
  obtain ⟨_, next, -, -, -, hfollow⟩ := exists_visits known self names ancestry
  have hnames := hfollow []
  rw [List.append_nil, follow] at hnames
  rw [hfollow, hnames]

/-- No name that is listed needs a visit any more. -/
structure Settled (known : Catalogue) (own : String) (ancestry : Ancestry) : Prop where
  own_visited : own ∈ ancestry.visited
  listed_followed : ∀ name ∈ ancestry.listed,
    known.lookup name = none ∨ name ∈ ancestry.visited

theorem Settled.mention (h : Settled known self ancestry)
    (hold : known.lookup name = none ∨ name ∈ ancestry.visited) :
    Settled known self (ancestry.mention self name) where
  own_visited := by
    rw [visited_mention]
    exact h.own_visited
  listed_followed other hother := by
    rw [visited_mention]
    rcases mem_listed_mention.mp hother with hlisted | ⟨rfl, -⟩
    · exact h.listed_followed other hlisted
    · exact hold

theorem Settled.visit (h : Settled known self ancestry) (parent : Protocol) :
    Settled known self (ancestry.visit self name parent) where
  own_visited := by
    rw [Ancestry.visit, visited_mention]
    exact List.mem_cons_of_mem _ h.own_visited
  listed_followed other hother := by
    rw [Ancestry.visit, visited_mention]
    rcases mem_listed_mention.mp hother with hlisted | ⟨rfl, -⟩
    · exact (h.listed_followed other hlisted).imp_right (List.mem_cons_of_mem _)
    · exact .inr List.mem_cons_self

theorem Settled.follow (h : Settled known self ancestry) (agenda : List String) :
    Settled known self (follow known self agenda ancestry) := by
  fun_induction Ancestry.follow known self agenda ancestry with
  | case1 ancestry => exact h
  | case2 name agenda ancestry parent =>
    rename_i ih
    exact ih (h.visit parent)
  | case3 name agenda ancestry hold ih =>
    refine ih (h.mention ?_)
    rcases hknown : known.lookup name with _ | parent
    · exact .inl rfl
    · exact .inr (by simpa using hold parent hknown)

theorem mention_eq_self (h : name ∈ ancestry.listed ∨ name = self) :
    ancestry.mention self name = ancestry := by
  rw [mention, if_pos (by simpa using h)]

private theorem listed_mention_of_new (h : ¬ (name ∈ ancestry.listed ∨ name = self)) :
    (ancestry.mention self name).listed = ancestry.listed ++ [name] := by
  rw [mention, if_neg (by simpa using h)]

/-- Names that are listed already change nothing. -/
theorem Settled.follow_eq_self (h : Settled known self ancestry)
    (hnames : ∀ name ∈ names, name ∈ ancestry.listed ∨ name = self) :
    Ancestry.follow known self names ancestry = ancestry := by
  induction names with
  | nil => rw [Ancestry.follow]
  | cons name names ih =>
    obtain ⟨hname, hnames⟩ := List.forall_mem_cons.mp hnames
    have hold : known.lookup name = none ∨ name ∈ ancestry.visited := by
      rcases hname with hlisted | rfl
      · exact h.listed_followed name hlisted
      · exact .inr h.own_visited
    rw [follow_of_old (by simpa using hold), mention_eq_self hname, ih hnames]

private theorem listed_prefix_mention (ancestry : Ancestry) (self name : String) :
    ancestry.listed <+: (ancestry.mention self name).listed := by
  by_cases h : name ∈ ancestry.listed ∨ name = self
  · exact ⟨[], by rw [mention_eq_self h, List.append_nil]⟩
  · rw [listed_mention_of_new h]
    exact List.prefix_append _ _

/-- The list only grows, and at its end. -/
theorem listed_prefix_follow (known : Catalogue) (self : String) (agenda : List String)
    (ancestry : Ancestry) : ancestry.listed <+: (follow known self agenda ancestry).listed := by
  fun_induction follow known self agenda ancestry with
  | case1 ancestry => exact List.prefix_refl _
  | case2 name agenda ancestry parent =>
    rename_i ih
    exact (listed_prefix_mention ancestry self name).trans ih
  | case3 name agenda ancestry hold ih => exact (listed_prefix_mention ancestry self name).trans ih

/-- A name that is new comes right behind those that were listed before it. -/
theorem listed_prefix_follow_singleton (known : Catalogue)
    (h : ¬ (name ∈ ancestry.listed ∨ name = self)) :
    ancestry.listed ++ [name] <+: (follow known self [name] ancestry).listed := by
  rw [← listed_mention_of_new h]
  -- Whether or not the name is visited, it is listed ahead of what it leads to.
  by_cases hold : known.lookup name = none ∨ name ∈ ancestry.visited
  · have hfollow : follow known self [name] ancestry = ancestry.mention self name := by
      rw [follow_of_old (by simpa using hold), follow]
    exact ⟨[], by rw [hfollow, List.append_nil]⟩
  · obtain ⟨hknown, hnew⟩ := not_or.mp hold
    obtain ⟨parent, hknown⟩ := Option.ne_none_iff_exists'.mp hknown
    rw [follow_of_new hknown (by simpa using hnew)]
    exact listed_prefix_follow known self _ (ancestry.visit self name parent)

/-- The ancestry is what its own list leads to. -/
def Retraces (known : Catalogue) (self : String) (ancestry : Ancestry) : Prop :=
  follow known self ancestry.listed { visited := [self] } = ancestry

theorem Retraces.follow_singleton (h : Retraces known self ancestry)
    (hsettled : Settled known self ancestry) (name : String) :
    Retraces known self (follow known self [name] ancestry) := by
  by_cases hold : name ∈ ancestry.listed ∨ name = self
  · rwa [hsettled.follow_eq_self (by simpa using hold)]
  · have hnext := hsettled.follow [name]
    obtain ⟨back, hback⟩ := listed_prefix_follow_singleton known hold
    -- Behind the name the list has what was met on the way from it, which is settled by then.
    calc follow known self (follow known self [name] ancestry).listed { visited := [self] }
      _ = follow known self (ancestry.listed ++ [name] ++ back) { visited := [self] } := by
        rw [hback]
      _ = follow known self back (follow known self [name] ancestry) := by
        rw [follow_append, follow_append, h]
      _ = follow known self [name] ancestry := by
        refine hnext.follow_eq_self fun other hother ↦ .inl ?_
        rw [← hback]
        exact List.mem_append_right _ hother

theorem Retraces.follow (h : Retraces known self ancestry)
    (hsettled : Settled known self ancestry) (names : List String) :
    Retraces known self (follow known self names ancestry) := by
  induction names generalizing ancestry with
  | nil => rwa [Ancestry.follow]
  | cons name names ih =>
    rw [← List.singleton_append, follow_append]
    exact ih (h.follow_singleton hsettled name) (hsettled.follow [name])

end Ancestry

/-- The merged protocol leads to what the protocol led to. -/
theorem Protocol.ancestry_withInherited (known : Catalogue) (protocol : Protocol) :
    (protocol.withInherited known).ancestry known = protocol.ancestry known := by
  have hsettled : Ancestry.Settled known protocol.name { visited := [protocol.name] } :=
    ⟨List.mem_singleton_self _, fun _ hlisted ↦ (List.not_mem_nil hlisted).elim⟩
  have hstart : Ancestry.Retraces known protocol.name { visited := [protocol.name] } := by
    rw [Ancestry.Retraces, Ancestry.follow]
  exact hstart.follow hsettled protocol.inherited

/-! ## Keeping what was kept -/

section

variable {α κ : Type} [BEq κ] [LawfulBEq κ] {key : α → κ} {seen : List κ} {items others : List α}

theorem distinctFrom_eq_nil (h : ∀ item ∈ items, key item ∈ seen) :
    distinctFrom key seen items = [] := by
  induction items with
  | nil => rfl
  | cons item items ih =>
    obtain ⟨hitem, hitems⟩ := List.forall_mem_cons.mp h
    rw [distinctFrom, if_pos (by simpa using hitem), ih hitems]

/-- Items whose keys have come up before are of no influence. -/
theorem distinctFrom_append_of_keys
    (h : ∀ other ∈ others, key other ∈ seen ∨ key other ∈ items.map key) :
    distinctFrom key seen (items ++ others) = distinctFrom key seen items := by
  induction items generalizing seen with
  | nil => exact distinctFrom_eq_nil (by simpa using h)
  | cons item items ih =>
    rw [List.cons_append, distinctFrom, distinctFrom]
    split
    · next hseen =>
      -- The key of an item that is dropped is among those seen.
      refine ih fun other hother ↦ (h other hother).elim .inl fun hmem ↦ ?_
      rcases List.mem_cons.mp hmem with heq | hmem
      · exact .inl (heq ▸ by simpa using hseen)
      · exact .inr hmem
    · refine congrArg (item :: ·) (ih fun other hother ↦ ?_)
      simpa [or_assoc, or_left_comm] using h other hother

theorem distinctFrom_eq_self (hnodup : (items.map key).Nodup)
    (hnew : ∀ item ∈ items, key item ∉ seen) : distinctFrom key seen items = items := by
  induction items generalizing seen with
  | nil => rfl
  | cons item items ih =>
    obtain ⟨hitem, hitems⟩ := List.forall_mem_cons.mp hnew
    obtain ⟨hother, hnodup⟩ := List.nodup_cons.mp hnodup
    rw [distinctFrom, if_neg (by simpa using hitem)]
    refine congrArg (item :: ·) (ih hnodup fun other hmem ↦ ?_)
    rw [List.mem_cons, not_or]
    exact ⟨fun heq ↦ hother (heq ▸ List.mem_map_of_mem hmem), hitems other hmem⟩

/-- Items that were kept are kept again, and the rest adds nothing to them. -/
theorem distinctBy_distinctBy_append (key : α → κ) (items others : List α) :
    distinctBy key (distinctBy key (items ++ others) ++ others) =
      distinctBy key (items ++ others) := by
  have hkept : ∀ other ∈ others, key other ∈ ([] : List κ) ∨
      key other ∈ (distinctBy key (items ++ others)).map key := by
    intro other hother
    have hnew : key other ∉ ([] : List κ) := List.not_mem_nil
    obtain ⟨kept, hkept, heq⟩ := exists_mem_distinctFrom (List.mem_append_right items hother) hnew
    exact .inr (heq ▸ List.mem_map_of_mem hkept)
  have hself : distinctBy key (distinctBy key (items ++ others)) =
      distinctBy key (items ++ others) :=
    distinctFrom_eq_self (nodup_map_distinctFrom [] _) fun _ _ ↦ List.not_mem_nil
  exact (distinctFrom_append_of_keys hkept).trans hself

end

/-- Merging a second time changes nothing. -/
theorem withInherited_withInherited (known : Catalogue) (protocol : Protocol) :
    (protocol.withInherited known).withInherited known = protocol.withInherited known := by
  rw [Protocol.withInherited, Protocol.ancestry_withInherited]
  simp only [Protocol.withInherited, List.flatMap_cons, distinctBy_distinctBy_append]

end TestDouble
