import TestDouble.CommandLine.Generate
import TestDouble.Files.Tree
import TestDouble.Proofs.Except

/-!
# Which failures are reported

Whatever was asked for and is no test double has a line in the reply, and then the command fails,
however its results are delivered. A source without tokens, though, has an outcome that names no
protocol. It cannot be asked for by name, so that it counts as long as no protocols are asked for,
and as soon as some are, the outcomes are those of the other sources; the log alone tells of it.
-/

namespace TestDouble.CommandLine

variable {processors : Nat} {settings : Settings} {tree : FileTree} {style : Style}
  {sources : List Source} {outcomes : List Outcome} {err : List String}

/-! ## Outcomes of sources -/

theorem ofSource_of_scan_eq_error {known : Catalogue} {source : Source} {fault : Fault}
    (h : Tokens.scan source.content = .error fault) :
    Outcome.ofSource style known source = [.unreadable source.name fault] := by
  have htext : Excerpt.ofText source.content = .error fault := by
    rw [Excerpt.ofText, h]
    rfl
  rw [Outcome.ofSource, htext]

/-- An outcome that names no protocol counts if and only if no protocols are asked for. -/
theorem selects_of_protocol?_eq_none {outcome : Outcome} (h : outcome.protocol? = none) :
    settings.selects outcome = settings.only.isEmpty := by
  simp [Settings.selects, h]

private theorem unreadable_mem_outcomes (honly : settings.only = []) {source : Source}
    (hsource : source ∈ sources) {fault : Fault}
    (h : Tokens.scan source.content = .error fault) :
    .unreadable source.name fault ∈ settings.outcomes style sources := by
  refine List.mem_filter.mpr ⟨List.mem_flatMap.mpr ⟨source, hsource, ?_⟩, ?_⟩
  · rw [ofSource_of_scan_eq_error h]
    exact List.mem_singleton_self _
  · rw [selects_of_protocol?_eq_none rfl, honly]
    rfl

/-- Where protocols are asked for, sources without tokens leave no outcome. -/
theorem outcomes_eq_of_only_ne_nil (honly : settings.only ≠ []) (style : Style)
    (sources : List Source) :
    settings.outcomes style sources =
      settings.outcomes style (sources.filter fun source ↦ (Tokens.scan source.content).isOk) := by
  simp only [Settings.outcomes, Outcome.ofSources]
  induction sources with
  | nil => rfl
  | cons source sources ih =>
    rcases hscan : Tokens.scan source.content with fault | tokens
    · -- The one outcome of the source names no protocol, so it is none of those asked for.
      have hnone : settings.selects (.unreadable source.name fault) = false := by
        rw [selects_of_protocol?_eq_none rfl, List.isEmpty_eq_false_iff]
        exact honly
      rw [List.filter_cons_of_neg (by simp [hscan, Except.isOk, Except.toBool]), List.flatMap_cons,
        List.filter_append, ofSource_of_scan_eq_error hscan, ih,
        List.filter_cons_of_neg (by simp [hnone])]
      rfl
    · rw [List.filter_cons_of_pos (by simp [hscan, Except.isOk, Except.toBool]), List.flatMap_cons,
        List.flatMap_cons, List.filter_append, List.filter_append, ih]

@[simp] theorem exitCode_eq_zero_iff :
    exitCode outcomes = 0 ↔ ∀ outcome ∈ outcomes, outcome.isMade = true := by
  simp [exitCode]

private theorem exitCode_eq_one_of_fault? {outcome : Outcome} (hmem : outcome ∈ outcomes)
    {fault : Fault} (h : outcome.fault? = some fault) : exitCode outcomes = 1 := by
  rw [exitCode, if_neg]
  intro hall
  have hmade := List.all_eq_true.mp hall outcome hmem
  simp [Outcome.isMade, h] at hmade

/-! ## Delivery -/

/-- However outcomes are delivered, all faults among them are told. -/
theorem deliver_tells (settings : Settings) (err : List String) (outcomes : List Outcome)
    (tree : FileTree) :
    ∃ reply tree' more,
      (deliver settings err outcomes : StateM FileTree Reply) tree = (reply, tree') ∧
        reply.err = err ++ outcomes.filterMap faultLine? ++ more ∧
        (reply.exitCode = exitCode outcomes ∨
          settings.destination = .files ∧ reply.exitCode = 1) := by
  rw [deliver]
  -- The exit code is not that of the outcomes only where files cannot be written.
  rcases hdestination : settings.destination with _ | _ | _
  · rcases hdirectory : settings.outputDirectory with _ | directory
    · exact ⟨_, _, _, rfl, rfl, .inr ⟨rfl, rfl⟩⟩
    · rcases hwritten : (writeOutcomes (.ofText directory) outcomes : StateM FileTree Written) tree
        with ⟨⟨notices, result⟩, tree'⟩
      simp only [bind, StateT.bind, hwritten]
      rcases result with fault | count
      · exact ⟨_, _, _, rfl, List.append_assoc .., .inr ⟨trivial, rfl⟩⟩
      · exact ⟨_, _, _, rfl, List.append_assoc .., .inl rfl⟩
  · exact ⟨_, _, _, rfl, rfl, .inl rfl⟩
  · exact ⟨_, _, _, rfl, rfl, .inl rfl⟩

/-! ## Notices -/

private theorem shows_warning (settings : Settings) : settings.shows .warning = true := by
  simp [Settings.shows, Notice.Level.rank]

private theorem line_untokenized (source : String) (fault : Fault) :
    (Notice.untokenized source fault).line =
      s!"WARNING: Could not tokenize {source}: {fault.text}" := by
  calc (Notice.untokenized source fault).line
      = "WARNING: " ++ ("Could not tokenize " ++ source ++ ": " ++ fault.text) := rfl
    _ = "WARNING: " ++ "Could not tokenize " ++ source ++ ": " ++ fault.text := by
      simp only [String.append_assoc]
    _ = s!"WARNING: Could not tokenize {source}: {fault.text}" := rfl

/-- The log tells of sources without tokens, whatever is asked for. -/
theorem warning_mem_log (settings : Settings) (style : Style) (known : Catalogue)
    {source : Source} (hsource : source ∈ sources) {fault : Fault}
    (h : Tokens.scan source.content = .error fault) :
    s!"WARNING: Could not tokenize {source.name}: {fault.text}" ∈
      settings.log (sources.flatMap (Outcome.notices style known)) := by
  rw [← line_untokenized]
  refine List.mem_map_of_mem (List.mem_filter.mpr ⟨List.mem_flatMap.mpr ⟨source, hsource, ?_⟩, ?_⟩)
  · rw [Outcome.notices, h]
    exact List.mem_cons_of_mem _ (List.mem_singleton_self _)
  · exact shows_warning settings

/-! ## The command -/

/-- The command gets as far as having outcomes. -/
structure Works (processors : Nat) (settings : Settings) (tree : FileTree) (style : Style)
    (sources : List Source) : Prop where
  style_eq : settings.style = .value (.ok style)
  sources_eq : ((settings.sources : StateM FileTree Sources) tree).1.result = .ok sources
  workers_ne : sources ≠ [] → settings.workers processors sources ≠ .blank

namespace Works

theorem exists_workNotices (h : Works processors settings tree style sources) :
    ∃ notices, settings.workNotices processors style sources = .value notices ∧
      sources.flatMap (Outcome.notices style .empty) <:+ notices := by
  rw [Settings.workNotices]
  rcases sources with _ | ⟨source, sources⟩
  · exact ⟨[], rfl, List.suffix_refl _⟩
  · rcases hworkers : settings.workers processors (source :: sources) with _ | workers
    · exact absurd hworkers (h.workers_ne (List.cons_ne_nil _ _))
    · exact ⟨_, rfl, List.suffix_cons _ _⟩

/-- What is left to the command then is to deliver the outcomes. -/
theorem run_generate (h : Works processors settings tree style sources) :
    ∃ err notices tree', (generate processors settings : StateM FileTree Reply) tree =
        (deliver settings (err ++ settings.log notices) (settings.outcomes style sources) :
          StateM FileTree Reply) tree' ∧
      sources.flatMap (Outcome.notices style .empty) <:+ notices := by
  obtain ⟨notices, hnotices, hsuffix⟩ := h.exists_workNotices
  have hsources := h.sources_eq
  rcases hrun : (settings.sources : StateM FileTree Sources) tree with ⟨⟨told, result⟩, tree'⟩
  rw [hrun] at hsources
  obtain rfl : result = .ok sources := hsources
  refine ⟨settings.log told, notices, tree', ?_, hsuffix⟩
  rw [generate, h.style_eq]
  simp only [bind, StateT.bind, hrun, hnotices]

end Works

/-- The command succeeds only if it gets that far. -/
theorem exists_works_of_exitCode
    (h : ((generate processors settings : StateM FileTree Reply) tree).1.exitCode = 0) :
    ∃ style sources, Works processors settings tree style sources := by
  rw [generate] at h
  rcases hstyle : settings.style with _ | refusal | style
  · rw [hstyle] at h
    cases h
  · rw [hstyle] at h
    cases h
  rw [hstyle] at h
  rcases hrun : (settings.sources : StateM FileTree Sources) tree with ⟨⟨told, result⟩, tree'⟩
  simp only [bind, StateT.bind, hrun] at h
  rcases result with fault | sources
  · cases h
  refine ⟨style, sources, hstyle, by rw [hrun], fun hne hblank ↦ ?_⟩
  have hnotices : settings.workNotices processors style sources = .blank := by
    rw [Settings.workNotices, if_neg (by simpa using hne), hblank]
    rfl
  dsimp only at h
  rw [hnotices] at h
  cases h

/-- What a reply tells of the outcomes of sources. -/
structure Reply.Tells (reply : Reply) (settings : Settings) (style : Style)
    (sources : List Source) : Prop where
  /-- Every failure that was asked for is told, and the command fails. -/
  failure : ∀ outcome ∈ settings.outcomes style sources, ∀ fault, outcome.fault? = some fault →
    s!"Error: {outcome.source}: {fault.text}" ∈ reply.err ∧ reply.exitCode = 1
  /-- If no protocols are asked for, so is every source without tokens. -/
  unreadable : settings.only = [] → ∀ source ∈ sources, ∀ fault,
    Tokens.scan source.content = .error fault →
      s!"Error: {source.name}: {fault.text}" ∈ reply.err ∧ reply.exitCode = 1
  /-- If some are, such sources are as good as absent. -/
  hidden : settings.only ≠ [] → settings.outcomes style sources =
    settings.outcomes style (sources.filter fun source ↦ (Tokens.scan source.content).isOk)
  /-- The log tells of them in any case. -/
  warning : ∀ source ∈ sources, ∀ fault, Tokens.scan source.content = .error fault →
    s!"WARNING: Could not tokenize {source.name}: {fault.text}" ∈ reply.err
  /-- Without failures and without files to write, the command succeeds. -/
  success : (∀ outcome ∈ settings.outcomes style sources, outcome.isMade = true) →
    settings.destination ≠ .files → reply.exitCode = 0

theorem Works.tells (h : Works processors settings tree style sources) :
    ((generate processors settings : StateM FileTree Reply) tree).1.Tells settings style
      sources := by
  obtain ⟨err, notices, tree', hrun, hsuffix⟩ := h.run_generate
  obtain ⟨reply, tree'', more, hdeliver, herr, hexit⟩ :=
    deliver_tells settings (err ++ settings.log notices) (settings.outcomes style sources) tree'
  rw [hrun, hdeliver]
  have hfailure : ∀ outcome ∈ settings.outcomes style sources, ∀ fault,
      outcome.fault? = some fault →
        s!"Error: {outcome.source}: {fault.text}" ∈ reply.err ∧ reply.exitCode = 1 := by
    intro outcome hmem fault hfault
    have hline : s!"Error: {outcome.source}: {fault.text}" ∈
        (settings.outcomes style sources).filterMap faultLine? :=
      List.mem_filterMap.mpr ⟨outcome, hmem, by rw [faultLine?, hfault]; rfl⟩
    refine ⟨?_, ?_⟩
    · rw [herr]
      exact List.mem_append_left _ (List.mem_append_right _ hline)
    -- Where the files cannot be written, the exit code is 1 as well.
    · rcases hexit with hexit | ⟨-, hexit⟩
      · exact hexit.trans (exitCode_eq_one_of_fault? hmem hfault)
      · exact hexit
  constructor
  case failure => exact hfailure
  case unreadable =>
    exact fun honly source hsource fault hscan ↦
      hfailure _ (unreadable_mem_outcomes honly hsource hscan) fault rfl
  case hidden => exact fun honly ↦ outcomes_eq_of_only_ne_nil honly style sources
  case warning =>
    intro source hsource fault hscan
    obtain ⟨work, rfl⟩ := hsuffix
    rw [herr, Settings.log, List.filter_append, List.map_append]
    have hlog := warning_mem_log settings style .empty hsource hscan
    exact List.mem_append_left _ (List.mem_append_left _
      (List.mem_append_right _ (List.mem_append_right _ hlog)))
  case success =>
    intro hmade hdestination
    rcases hexit with hexit | ⟨hfiles, -⟩
    · exact hexit.trans (exitCode_eq_zero_iff.mpr hmade)
    · exact absurd hfiles hdestination

/-- The command tells of every failure that was asked for, and of every source without tokens unless
protocols are asked for by name. It succeeds only if the sources could be read, all that was asked
for was made and, if that was everything, no source is without tokens. -/
theorem generate_tells (processors : Nat) (settings : Settings) (tree : FileTree) :
    let reply := ((generate processors settings : StateM FileTree Reply) tree).1
    (∀ style sources, Works processors settings tree style sources →
      reply.Tells settings style sources) ∧
    (reply.exitCode = 0 → ∃ style sources, Works processors settings tree style sources ∧
      (∀ outcome ∈ settings.outcomes style sources, outcome.isMade = true) ∧
      (settings.only = [] → ∀ source ∈ sources, ∃ tokens,
        Tokens.scan source.content = .ok tokens)) := by
  intro reply
  refine ⟨fun style sources hworks ↦ hworks.tells, fun hzero ↦ ?_⟩
  obtain ⟨style, sources, hworks⟩ := exists_works_of_exitCode hzero
  have htells : reply.Tells settings style sources := hworks.tells
  refine ⟨style, sources, hworks, fun outcome hmem ↦ ?_, fun honly source hsource ↦ ?_⟩
  · rcases hfault : outcome.fault? with _ | fault
    · rw [Outcome.isMade, hfault]
      rfl
    · have hone := (htells.failure outcome hmem fault hfault).2
      omega
  · rcases hscan : Tokens.scan source.content with fault | tokens
    · have hone := (htells.unreadable honly source hsource fault hscan).2
      omega
    · exact ⟨tokens, rfl⟩

private theorem scan_openString :
    Tokens.scan "\x22" = .error { cause := .openString, line? := some 1 } := by
  have h : (Tokens.scan "\x22").toError? = some { cause := .openString, line? := some 1 } := by
    decide +kernel
  exact Except.toError?_eq_some_iff.mp h

private theorem style_eq_standard (hindent : settings.indent = .value 4)
    (hpublic : settings.isPublic? = none) : settings.style = .value (.ok .standard) := by
  rw [Settings.style, hindent, hpublic]
  rfl

/-- A source without tokens is told of although the only protocol is excluded. -/
theorem generate_tells_excluded :
    let tree : FileTree := { nodes := [
      (["Open.swift"], .file [0x22]), (["P.swift"], .file "protocol P \x7b \x7d".toUTF8.toList)] }
    let settings : Settings :=
      { paths := ["P.swift", "Open.swift"], destination := .json, skip := [.value "P"] }
    let sources : List Source := [⟨"P.swift", "protocol P \x7b \x7d"⟩, ⟨"Open.swift", "\x22"⟩]
    let reply := ((generate 4 settings : StateM FileTree Reply) tree).1
    Works 4 settings tree .standard sources ∧ reply.Tells settings .standard sources ∧
      "Error: Open.swift: Unterminated string literal (line 1)" ∈ reply.err ∧
      reply.exitCode = 1 := by
  intro tree settings sources reply
  have hsources : ((settings.sources : StateM FileTree Sources) tree).1.result.toOption =
      some sources := by decide +kernel
  have hworks : Works 4 settings tree .standard sources :=
    ⟨style_eq_standard rfl rfl, Except.toOption_eq_some_iff.mp hsources, fun _ ↦ nofun⟩
  have htells := (generate_tells 4 settings tree).1 .standard sources hworks
  have hline := htells.unreadable rfl ⟨"Open.swift", "\x22"⟩ (by simp [sources]) _
    scan_openString
  exact ⟨hworks, htells, hline⟩

/-- A source without tokens is not told of, and the command succeeds, when a protocol is asked
for. -/
theorem not_forall_unreadable_told : ¬ ∀ (processors : Nat) (settings : Settings) (tree : FileTree)
    (style : Style) (sources : List Source), Works processors settings tree style sources →
    let reply := ((generate processors settings : StateM FileTree Reply) tree).1
    ∀ source ∈ sources, ∀ fault, Tokens.scan source.content = .error fault →
      s!"Error: {source.name}: {fault.text}" ∈ reply.err ∧ reply.exitCode = 1 := by
  intro h
  let tree : FileTree := { nodes := [(["Open.swift"], .file [0x22])] }
  let settings : Settings :=
    { paths := ["Open.swift"], destination := .stdout, only := [.value "P"] }
  have hsources : ((settings.sources : StateM FileTree Sources) tree).1.result.toOption =
      some [⟨"Open.swift", "\x22"⟩] := by decide +kernel
  have hworks : Works 4 settings tree .standard [⟨"Open.swift", "\x22"⟩] :=
    ⟨style_eq_standard rfl rfl, Except.toOption_eq_some_iff.mp hsources, fun _ ↦ nofun⟩
  have hexit : ((generate 4 settings : StateM FileTree Reply) tree).1.exitCode = 0 := by
    decide +kernel
  have htold := (h 4 settings tree .standard _ hworks _ List.mem_cons_self _ scan_openString).2
  exact absurd (hexit.symm.trans htold) (by decide)

end TestDouble.CommandLine
