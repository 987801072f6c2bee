import Mathlib.Data.List.Dedup
import TestDouble.CommandLine.Generate
import TestDouble.Proofs.Files.Writing

/-!
# Which test doubles are kept

The file of a test double is named for the protocol alone, so that test doubles of different sources
can go to one place, and so can those of one source that declares a name twice. The files are
written one after the other and the last one stays, while all of them are counted. Hence every test
double is kept, and the count is that of the files, if and only if no two go to one place. Where no
name contains a slash, that is to say that no two have one file name.
-/

namespace TestDouble.CommandLine

open FileTree

variable {directory : Path} {tree tree' : FileTree} {files : List (String × String)}
  {file : String × String} {outcomes : List Outcome} {written : Written} {count n : Nat}

/-! ## One file after the other -/

/-- The place that a file is written to. -/
def landing (directory : Path) (file : String × String) : FileTree.Place :=
  target (directory.append (.ofText file.1))

/-- Writing the files in their order leads from one tree to another. -/
inductive Writes (directory : Path) : FileTree → List (String × String) → FileTree → Prop
  | nil {tree : FileTree} : Writes directory tree [] tree
  | cons {tree middle tree' : FileTree} {file : String × String} {files : List (String × String)} :
      tree.write (directory.append (.ofText file.1)) file.2 = .ok middle →
      Writes directory middle files tree' → Writes directory tree (file :: files) tree'

/-- What is written last to a place, if anything is. -/
def lastAt? (directory : Path) (files : List (String × String)) (place : FileTree.Place) :
    Option (String × String) :=
  files.reverse.find? (landing directory · = place)

private theorem exists_lastAt? (directory : Path) (hfile : file ∈ files) :
    ∃ last ∈ files, lastAt? directory files (landing directory file) = some last ∧
      landing directory last = landing directory file := by
  have hsome : (lastAt? directory files (landing directory file)).isSome := by
    rw [lastAt?, List.find?_isSome]
    exact ⟨file, List.mem_reverse.mpr hfile, by simp⟩
  obtain ⟨last, hlast⟩ := Option.isSome_iff_exists.mp hsome
  have hplace : landing directory last = landing directory file := by
    simpa using List.find?_some hlast
  exact ⟨last, List.mem_reverse.mp (List.mem_of_find?_eq_some hlast), hlast, hplace⟩

private theorem lastAt?_eq_self_of_nodup (h : (files.map (landing directory)).Nodup)
    (hfile : file ∈ files) :
    lastAt? directory files (landing directory file) = some file := by
  have hreverse : (files.reverse.map (landing directory)).Nodup := by
    rw [List.map_reverse]
    exact List.nodup_reverse.mpr h
  exact (find?_key_eq_some_iff hreverse).mpr ⟨List.mem_reverse.mpr hfile, rfl⟩

theorem lastAt?_cons (place : FileTree.Place) :
    lastAt? directory (file :: files) place =
      (lastAt? directory files place).or
        (if landing directory file = place then some file else none) := by
  simp [lastAt?, List.find?_append, List.find?_singleton]

namespace Writes

/-- At each place there is what was written to it last, and what was there before if nothing was. -/
theorem node?_eq (h : Writes directory tree files tree') (place : FileTree.Place) :
    tree'.node? place =
      ((lastAt? directory files place).map fun file ↦ .file file.2.toUTF8.toList).or
        (tree.node? place) := by
  induction h with
  | nil => rfl
  | @cons tree middle tree' file files hwrite _ ih =>
    rw [ih, node?_write hwrite, lastAt?_cons, ← landing]
    -- A file that is written later wins over the first one.
    rcases lastAt? directory files place with _ | last
    · by_cases hplace : place = landing directory file
      · rw [if_pos hplace, if_pos hplace.symm]
        rfl
      · rw [if_neg hplace, if_neg (Ne.symm hplace)]
        rfl
    · rfl

theorem keepsDirectories (h : Writes directory tree files tree') : KeepsDirectories tree tree' := by
  induction h with
  | nil => exact fun _ ↦ id
  | cons hwrite _ ih =>
    exact fun place hplace ↦ ih place (keepsDirectories_of_write hwrite place hplace)

/-- Whatever was written can be found under its path. -/
theorem place_eq (h : Writes directory tree files tree') (hfile : file ∈ files) :
    tree'.place (directory.append (.ofText file.1)) = .ok (landing directory file) := by
  induction h with
  | nil => cases hfile
  | cons hwrite hlater ih =>
    rcases List.mem_cons.mp hfile with rfl | hfile
    · -- Files that are written later replace none of the directories on the way.
      have hplace := (keepsDirectories_of_write hwrite).place (write_eq_ok_iff.mp hwrite).1
      exact hlater.keepsDirectories.place hplace
    · exact ih hfile

theorem read_eq (h : Writes directory tree files tree') (hfile : file ∈ files)
    {last : String × String}
    (hlast : lastAt? directory files (landing directory file) = some last) :
    tree'.read (directory.append (.ofText file.1)) = .ok last.2.toUTF8.toList := by
  rw [read_eq_ok_iff, ← landing, h.place_eq hfile, h.node?_eq, hlast]
  exact ⟨rfl, rfl⟩

end Writes

/-! ## Runs -/

theorem run_writeFiles_cons :
    (writeFiles directory count (file :: files) : StateM FileTree Written) tree =
      let path := directory.append (.ofText file.1)
      match tree.write path file.2 with
      | .error refusal => ({ result := .error ⟨refusal, path⟩ }, tree)
      | .ok middle =>
        let later := (writeFiles directory (count + 1) files : StateM FileTree Written) middle
        ({ later.1 with
          notices := .written path.text :: later.1.notices }, later.2) := by
  obtain ⟨fileName, text⟩ := file
  rw [writeFiles]
  simp only [bind, StateT.bind, FileSystem.write, change]
  rcases tree.write (directory.append (.ofText fileName)) text with refusal | middle <;> rfl

/-- A run that counts files has written them all. -/
theorem writes_of_writeFiles
    (h : (writeFiles directory count files : StateM FileTree Written) tree = (written, tree'))
    (hresult : written.result = .ok n) :
    Writes directory tree files tree' ∧ n = count + files.length := by
  induction files generalizing tree count written with
  | nil =>
    obtain ⟨rfl, rfl⟩ := Prod.mk.inj h
    exact ⟨.nil, (Except.ok.inj hresult).symm⟩
  | cons file files ih =>
    rw [run_writeFiles_cons] at h
    dsimp only at h
    split at h
    · obtain ⟨rfl, -⟩ := Prod.mk.inj h
      cases hresult
    · next middle hwrite =>
      obtain ⟨rfl, rfl⟩ := Prod.mk.inj h
      obtain ⟨hwrites, hcount⟩ := ih rfl hresult
      refine ⟨.cons hwrite hwrites, ?_⟩
      rw [List.length_cons]
      omega

private theorem writes_of_writeOutcomes
    (h : (writeOutcomes directory outcomes : StateM FileTree Written) tree = (written, tree'))
    (hresult : written.result = .ok n) :
    ∃ made, Writes directory made (outcomes.filterMap fileOf?) tree' ∧
      n = (outcomes.filterMap fileOf?).length := by
  rw [writeOutcomes] at h
  simp only [bind, StateT.bind] at h
  rcases hmade : (FileSystem.ensureDirectory directory : StateM FileTree _) tree with ⟨result, made⟩
  rw [hmade] at h
  rcases result with fault | _
  · obtain ⟨rfl, -⟩ := Prod.mk.inj h
    cases hresult
  · obtain ⟨hwrites, hcount⟩ := writes_of_writeFiles h hresult
    exact ⟨made, hwrites, by omega⟩

/-! ## File names -/

/-- The protocols that have test doubles among the outcomes. -/
def madeProtocols (outcomes : List Outcome) : List String :=
  (outcomes.filter Outcome.isMade).filterMap Outcome.protocol?

/-- The file of a test double is named for the protocol. -/
theorem fileName_eq_of_mem_ofSources {style : Style} {sources : List Source}
    {source protocol className fileName text : String}
    (h : .made source protocol className fileName text ∈ Outcome.ofSources style sources) :
    fileName = style.fileName protocol := by
  obtain ⟨origin, -, h⟩ := List.mem_flatMap.mp h
  rw [Outcome.ofSource] at h
  split at h
  · simp at h
  · obtain ⟨excerpt, -, h⟩ := List.mem_map.mp h
    rw [Outcome.ofReading.eq_def] at h
    split at h
    · cases h
    · split at h
      · cases h
      · cases h
        rfl

private theorem map_fst_files {style : Style} {sources : List Source}
    (h : ∀ outcome ∈ outcomes, outcome ∈ Outcome.ofSources style sources) :
    (outcomes.filterMap fileOf?).map Prod.fst = (madeProtocols outcomes).map style.fileName := by
  induction outcomes with
  | nil => rfl
  | cons outcome outcomes ih =>
    have hlater := ih fun later hlater ↦ h later (List.mem_cons_of_mem _ hlater)
    cases outcome with
    | made source protocol className fileName text =>
      rw [fileName_eq_of_mem_ofSources (h _ List.mem_cons_self)]
      exact congrArg (style.fileName protocol :: ·) hlater
    | refused => exact hlater
    | unreadable => exact hlater

private theorem fileName_eq (style : Style) (protocol : String) :
    style.fileName protocol = protocol ++ (style.fileSuffix ++ ".swift") :=
  String.append_assoc ..

/-- No two test doubles go to one place if and only if they are for different protocols, names with
slashes apart. -/
theorem nodup_landing_iff {style : Style} {sources : List Source}
    (h : ∀ outcome ∈ outcomes, outcome ∈ Outcome.ofSources style sources)
    (hsuffix : '/' ∉ style.fileSuffix.toList)
    (hprotocols : ∀ protocol ∈ madeProtocols outcomes, '/' ∉ protocol.toList) :
    ((outcomes.filterMap fileOf?).map (landing directory)).Nodup ↔
      (madeProtocols outcomes).Nodup := by
  have hlanding : ∀ protocol ∈ madeProtocols outcomes,
      target (directory.append (.ofText (style.fileName protocol))) =
        target directory ++ [style.fileName protocol] := by
    intro protocol hprotocol
    refine target_append_of_plain ?_ ?_
    · rw [fileName_eq]
      simp [hprotocols protocol hprotocol, hsuffix]
    · -- With its ending a file name is too long to mean anything else in a path.
      have hlength : 6 ≤ (style.fileName protocol).length := by
        rw [fileName_eq, String.length_append, String.length_append,
          show ".swift".length = 6 from rfl]
        omega
      have hshort : ∀ name ∈ ["", ".", ".."], name.length < 6 := by decide
      exact fun hmem ↦ (hshort _ hmem).not_ge hlength
  have hplaces : (outcomes.filterMap fileOf?).map (landing directory) =
      (madeProtocols outcomes).map fun protocol ↦
        target directory ++ [style.fileName protocol] := by
    calc (outcomes.filterMap fileOf?).map (landing directory)
        = ((outcomes.filterMap fileOf?).map Prod.fst).map
            fun name ↦ target (directory.append (.ofText name)) := by
          rw [List.map_map]
          rfl
      _ = _ := by
          rw [map_fst_files h, List.map_map]
          exact List.map_congr_left hlanding
  rw [hplaces, List.nodup_map_iff]
  intro protocol other heq
  simpa [fileName_eq] using heq

/-! ## Nothing is lost -/

/-- Of the test doubles that go to one place the last one is kept. All are kept, and their number is
that of the files, if and only if no two go to one place; that is to say, names with slashes apart,
that no two are for protocols of one name. -/
theorem writeOutcomes_keeps_iff
    (h : (writeOutcomes directory outcomes : StateM FileTree Written) tree = (written, tree'))
    (hresult : written.result = .ok n) :
    let files := outcomes.filterMap fileOf?
    let places := files.map (landing directory)
    n = files.length ∧
      (∀ file ∈ files, ∃ last, lastAt? directory files (landing directory file) = some last ∧
        tree'.read (directory.append (.ofText file.1)) = .ok last.2.toUTF8.toList) ∧
      ((n = places.dedup.length ∧ ∀ file ∈ files,
          tree'.read (directory.append (.ofText file.1)) = .ok file.2.toUTF8.toList) ↔
        places.Nodup) ∧
      ∀ style sources, (∀ outcome ∈ outcomes, outcome ∈ Outcome.ofSources style sources) →
        '/' ∉ style.fileSuffix.toList →
        (∀ protocol ∈ madeProtocols outcomes, '/' ∉ protocol.toList) →
        (places.Nodup ↔ (madeProtocols outcomes).Nodup) := by
  intro files places
  obtain ⟨made, hwrites, hcount⟩ := writes_of_writeOutcomes h hresult
  refine ⟨hcount, fun file hfile ↦ ?_, ⟨fun ⟨hdistinct, _⟩ ↦ ?_, fun hnodup ↦ ⟨?_, ?_⟩⟩,
    fun _ _ ↦ nodup_landing_iff⟩
  · obtain ⟨last, -, hlast, -⟩ := exists_lastAt? directory hfile
    exact ⟨last, hlast, hwrites.read_eq hfile hlast⟩
  · -- All files are counted, so there are as many places as files.
    have hlength : places.dedup.length = places.length := by
      rw [← hdistinct, hcount, List.length_map]
    rw [← List.dedup_eq_self]
    exact (List.dedup_sublist places).eq_of_length hlength
  · rw [hnodup.dedup, List.length_map, hcount]
  · intro file hfile
    exact hwrites.read_eq hfile (lastAt?_eq_self_of_nodup hnodup hfile)

/-- Two sources have a test double of one name each, and one is kept. -/
theorem writeOutcomes_keeps_iff_repeated :
    let outcomes : List Outcome := [
      .made "a.swift" "P" "MockP" "PMock.swift" "class MockP: P \x7b\n\n\x7d\n",
      .unreadable "b.swift" { cause := .openString, line? := some 1 },
      .made "c.swift" "P" "MockP" "PMock.swift" "public class MockP: P \x7b\n\n\x7d\n",
      .made "c.swift" "Q" "MockQ" "QMock.swift" "class MockQ: Q \x7b\n\n\x7d\n"]
    let directory := Path.ofText "out/mocks"
    let files := outcomes.filterMap fileOf?
    let places := files.map (landing directory)
    let run := (writeOutcomes directory outcomes : StateM FileTree Written) {}
    run.1.result = .ok 3 ∧ ¬ places.Nodup ∧ 3 = files.length ∧
      (∀ file ∈ files, ∃ last, lastAt? directory files (landing directory file) = some last ∧
        run.2.read (directory.append (.ofText file.1)) = .ok last.2.toUTF8.toList) ∧
      ((3 = places.dedup.length ∧ ∀ file ∈ files,
          run.2.read (directory.append (.ofText file.1)) = .ok file.2.toUTF8.toList) ↔
        places.Nodup) ∧
      ∀ style sources, (∀ outcome ∈ outcomes, outcome ∈ Outcome.ofSources style sources) →
        '/' ∉ style.fileSuffix.toList →
        (∀ protocol ∈ madeProtocols outcomes, '/' ∉ protocol.toList) →
        (places.Nodup ↔ (madeProtocols outcomes).Nodup) := by
  intro outcomes directory files places run
  have hresult : run.1.result = .ok 3 := by decide +kernel
  have hrepeated : ¬ places.Nodup := by decide +kernel
  exact ⟨hresult, hrepeated, writeOutcomes_keeps_iff rfl hresult⟩

/-- A test double can be lost to that of another source, and is counted all the same. -/
theorem not_forall_made_kept : ¬ ∀ (directory : Path) (outcomes : List Outcome)
    (tree tree' : FileTree) (written : Written) (n : Nat),
    (writeOutcomes directory outcomes : StateM FileTree Written) tree = (written, tree') →
    written.result = .ok n →
    n = ((outcomes.filterMap fileOf?).map (landing directory)).dedup.length ∧
      ∀ file ∈ outcomes.filterMap fileOf?,
        tree'.read (directory.append (.ofText file.1)) = .ok file.2.toUTF8.toList := by
  intro h
  let outcomes : List Outcome := [
    .made "a.swift" "P" "MockP" "PMock.swift" "class MockP: P \x7b\n\n\x7d\n",
    .made "b.swift" "P" "MockP" "PMock.swift" "public class MockP: P \x7b\n\n\x7d\n"]
  let run := (writeOutcomes (.ofText "out") outcomes : StateM FileTree Written) {}
  obtain ⟨-, hkept⟩ :=
    h (.ofText "out") outcomes {} run.2 run.1 2 rfl (by decide +kernel)
  have hlost : ¬ ∀ file ∈ outcomes.filterMap fileOf?,
      run.2.read ((Path.ofText "out").append (.ofText file.1)) = .ok file.2.toUTF8.toList := by
    decide +kernel
  exact hlost hkept

end TestDouble.CommandLine
