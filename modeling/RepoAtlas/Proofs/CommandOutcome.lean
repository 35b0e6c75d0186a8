/-
Module: RepoAtlas.Proofs.CommandOutcome
Purpose: The exit code of a command, and what it leaves in the state directory.
  A command over a repository fails when no file parses, but also when every file is a manifest,
  even one that parses.  In the first case nothing is kept; in the second the snapshot has been kept
  by then, and the next command finds the repository up to date.
Main exports: Ending.exitCode, Command, understand, execute_eq, Command.Ends, Command.ends,
  get?_stateDirectoryAt, Command.Returns, Command.Overlooks, Command.Repeats,
  failing_commands_and_their_store, setup_script_fails_once
-/
import RepoAtlas.CommandLine.Session
import RepoAtlas.Proofs.DiscoveredFiles
import RepoAtlas.Proofs.RepeatedRuns

namespace RepoAtlas.CommandLine

open Disk Repository Store

/-! ### Commands -/

/-- The exit code of a command.  One that ends in an exception has the code of a failure. -/
def Ending.exitCode : Ending → Nat
  | .replied reply => reply.exitCode
  | .refused _ => 2
  | .helped => 0
  | .failed _ => 1
  | .unwritable _ => 1

/-- A command line that has been understood, with what it sees of the machine. -/
structure Command where
  environment : Environment
  options : Options
  root : List String
  statePath : Option (List String)

/-- Understands a command line; nothing is to be done if it calls for help. -/
def understand (environment : Environment) (arguments : List String) :
    Except UsageError (Option Command) :=
  match Options.parse arguments with
  | .error flaw => .error flaw
  | .ok options =>
    if options.help then .ok none
    else
      match rootOf environment options.root with
      | .error flaw => .error flaw
      | .ok root =>
        match options.stateDirectory with
        | none => .ok (some ⟨environment, options, root, none⟩)
        | some text =>
          match statePathOf environment text with
          | .error flaw => .error flaw
          | .ok path => .ok (some ⟨environment, options, root, some path⟩)

namespace Command

def execute (command : Command) : Ending × Disk :=
  executeIn command.environment command.options command.root command.statePath

/-- The repository that a command is about. -/
def site (command : Command) : Site :=
  { disk := command.environment.disk
    root := command.environment.disk.resolve command.root
    git := command.environment.git
    matcher := command.environment.matcher }

def runOptions (command : Command) : RunOptions :=
  { commit := command.options.commit, language := command.options.language
    sizeLimit := some command.options.maxFileSize, now := command.environment.now }

/-- The store of a command, read off a disk. -/
def storeOn (command : Command) (disk : Disk) : Option Store :=
  command.statePath.map (fun path =>
    .documents (stateDirectoryAt disk path) command.environment.nesting)

def run (command : Command) : Except RunFailure Run :=
  Repository.run command.environment.grammar command.site command.runOptions
    (command.storeOn command.environment.disk)

/-- What keeping the snapshot of a run does to the disk. -/
def keep (command : Command) (outcome : Run) : Outcome :=
  match command.statePath with
  | none => { disk := command.environment.disk }
  | some path => keepSnapshot command.environment.disk path command.site.pathText outcome

/-- How a command can end, and the disk it leaves. -/
inductive Ends (command : Command) : Ending → Disk → Prop where
  | unsupported {language : String} (asked : unsupportedLanguage? command.options = some language) :
      Ends command
        (.replied { exitCode := 1, errors := linesText [unsupportedLine language] })
        command.environment.disk
  | failed {failure : RunFailure} (supported : unsupportedLanguage? command.options = none)
      (ran : command.run = .error failure) : Ends command (.failed failure) command.environment.disk
  | upToDate {kept : Option Store} {reply : Reply}
      (supported : unsupportedLanguage? command.options = none)
      (ran : command.run = .ok ⟨none, kept⟩) (settled : reply.exitCode = 0) :
      Ends command (.replied reply) command.environment.disk
  | unwritable {analysis : Analysis} {kept : Option Store} {failure : Failure}
      (supported : unsupportedLanguage? command.options = none)
      (ran : command.run = .ok ⟨some analysis, kept⟩)
      (stopped : (command.keep ⟨some analysis, kept⟩).failure = some failure) :
      Ends command (.unwritable failure) (command.keep ⟨some analysis, kept⟩).disk
  | analysed {analysis : Analysis} {kept : Option Store}
      (supported : unsupportedLanguage? command.options = none)
      (ran : command.run = .ok ⟨some analysis, kept⟩)
      (written : (command.keep ⟨some analysis, kept⟩).failure = none) :
      Ends command (.replied (replyTo command.options analysis))
        (command.keep ⟨some analysis, kept⟩).disk

section Execution

variable {command : Command}

theorem execute_of_unsupported {language : String}
    (asked : unsupportedLanguage? command.options = some language) :
    command.execute =
      (.replied { exitCode := 1, errors := linesText [unsupportedLine language] },
        command.environment.disk) := by
  unfold execute executeIn
  simp only [asked]

variable (supported : unsupportedLanguage? command.options = none)

include supported

theorem execute_of_failure {failure : RunFailure} (ran : command.run = .error failure) :
    command.execute = (.failed failure, command.environment.disk) := by
  unfold run site runOptions storeOn at ran
  unfold execute executeIn
  simp only [supported, ran]

theorem execute_of_upToDate {kept : Option Store} (ran : command.run = .ok ⟨none, kept⟩) :
    ∃ reply : Reply, reply.exitCode = 0 ∧
      command.execute = (.replied reply, command.environment.disk) := by
  unfold run site runOptions storeOn at ran
  unfold execute executeIn
  simp only [supported, ran]
  exact ⟨_, rfl, rfl⟩

theorem execute_of_analysis {analysis : Analysis} {kept : Option Store}
    (ran : command.run = .ok ⟨some analysis, kept⟩) :
    command.execute =
      match (command.keep ⟨some analysis, kept⟩).failure with
      | some failure => (.unwritable failure, (command.keep ⟨some analysis, kept⟩).disk)
      | none =>
        (.replied (replyTo command.options analysis),
          (command.keep ⟨some analysis, kept⟩).disk) := by
  obtain ⟨environment, options, root, statePath⟩ := command
  simp only [run, runOptions, storeOn, site] at ran
  cases statePath with
  | none => simp only [execute, executeIn, keep, supported, ran]
  | some path =>
    rcases ended : keepSnapshot environment.disk path
      (Command.site ⟨environment, options, root, some path⟩).pathText ⟨some analysis, kept⟩ with
      ⟨after, _ | failure⟩
    all_goals
      rw [site] at ended
      simp only [execute, executeIn, keep, site, supported, ran, ended]

end Execution

/-- Every command ends in one of these ways. -/
theorem ends (command : Command) : command.Ends command.execute.1 command.execute.2 := by
  cases asked : unsupportedLanguage? command.options with
  | some language =>
    rw [execute_of_unsupported asked]
    exact .unsupported asked
  | none =>
    rcases ran : command.run with failure | ⟨_ | analysis, kept⟩
    · rw [execute_of_failure asked ran]
      exact .failed asked ran
    · obtain ⟨reply, settled, executed⟩ := execute_of_upToDate asked ran
      rw [executed]
      exact .upToDate asked ran settled
    · rw [execute_of_analysis asked ran]
      split
      · next stopped => exact .unwritable asked ran stopped
      · next written => exact .analysed asked ran written

end Command

/-- A command line that is understood is executed as its command. -/
theorem execute_eq (environment : Environment) (arguments : List String) :
    execute environment arguments =
      match understand environment arguments with
      | .error flaw => (.refused flaw, environment.disk)
      | .ok none => (.helped, environment.disk)
      | .ok (some command) => command.execute := by
  unfold execute understand
  rcases Options.parse arguments with flaw | options
  · rfl
  · by_cases help : options.help = true
    · simp only [help, if_true]
    · simp only [help, Bool.false_eq_true, if_false]
      rcases rootOf environment options.root with flaw | root
      · rfl
      · cases options.stateDirectory with
        | none => rfl
        | some text =>
          rcases placed : statePathOf environment text <;> simp only [placed, Command.execute]

/-! ### Replies -/

/-- A command over an analysis succeeds if some file is parsed and not all are manifests. -/
theorem exitCode_replyTo_eq_zero_iff (options : Options) (analysis : Analysis) :
    (replyTo options analysis).exitCode = 0 ↔
      analysis.hasParsed = true ∧ analysis.files.keys.all (isManifest ·) = false := by
  unfold replyTo
  cases analysis.files.keys.all (isManifest ·) <;> cases analysis.hasParsed <;> simp

theorem exitCode_replyTo_le (options : Options) (analysis : Analysis) :
    (replyTo options analysis).exitCode ≤ 1 := by
  unfold replyTo
  cases analysis.files.keys.all (isManifest ·) <;> cases analysis.hasParsed <;> simp

/-- A failing reply depends on the files and warnings alone. -/
theorem replyTo_congr {options options' : Options} {analysis analysis' : Analysis}
    (files : analysis'.files = analysis.files) (warnings : analysis'.warnings = analysis.warnings)
    (failing : (replyTo options analysis).exitCode ≠ 0) :
    replyTo options' analysis' = replyTo options analysis := by
  rw [ne_eq, exitCode_replyTo_eq_zero_iff] at failing
  have parsed : analysis'.hasParsed = analysis.hasParsed := by
    rw [Analysis.hasParsed, files, Analysis.hasParsed]
  unfold replyTo
  cases manifests : analysis.files.keys.all (isManifest ·) with
  | true => simp only [files, warnings, manifests, if_true]
  | false =>
    cases found : analysis.hasParsed with
    | true => exact absurd ⟨found, manifests⟩ failing
    | false =>
      simp only [files, warnings, parsed, manifests, found, Bool.false_eq_true, if_false,
        Bool.not_false, if_true]

/-! ### What is kept -/

section Keeping

variable {disk : Disk} {path : List String} {key : String} {outcome : Run}

theorem keepSnapshot_of_unparsed (unparsed : outcome.result.any Analysis.hasParsed = false) :
    keepSnapshot disk path key outcome = { disk := disk } := by
  unfold keepSnapshot
  rw [unparsed]
  cases documentOf outcome.store key <;> rfl

theorem keepSnapshot_of_parsed {bytes : List UInt8}
    (parsed : outcome.result.any Analysis.hasParsed = true)
    (kept : documentOf outcome.store key = some bytes) :
    keepSnapshot disk path key outcome = disk.writeInto (path ++ [keyFileName key]) bytes := by
  unfold keepSnapshot
  rw [parsed, kept]

theorem documentOf_put (directory : StateDirectory) (nesting : Nesting) (key : String)
    (bytes : List UInt8) :
    documentOf (some (.documents (directory.put key (.file bytes)) nesting)) key = some bytes := by
  simp [documentOf]

/-- A snapshot that cannot be kept leaves every file alone. -/
theorem keepsFiles_keepSnapshot (stopped : (keepSnapshot disk path key outcome).failure ≠ none) :
    KeepsFiles disk (keepSnapshot disk path key outcome).disk := by
  unfold keepSnapshot at stopped ⊢
  split
  · next bytes kept parsed =>
    rw [kept, parsed] at stopped
    exact keepsFiles_writeInto stopped
  · exact .refl disk

theorem keyFileName_ne_ascent (key : String) : keyFileName key ≠ ".." := by
  intro same
  have chars := congrArg (fun text => text.toList.length) same
  simp [keyFileName] at chars

theorem mem_of_childNamed {name : String} {children : List (String × Entry)}
    (found : (childNamed name children).isSome = true) : ∃ child ∈ children, child.1 = name := by
  induction children with
  | nil => cases found
  | cons child rest ih =>
    obtain ⟨other, entry⟩ := child
    by_cases same : other = name
    · exact ⟨_, List.mem_cons_self, same⟩
    · rw [childNamed, if_neg same] at found
      obtain ⟨later, member, named⟩ := ih found
      exact ⟨later, List.mem_cons_of_mem _ member, named⟩

theorem locate_of_readFile {bytes : List UInt8} (read : disk.readFile path = .ok bytes) :
    ∃ real, disk.locate path = .ok ⟨real, .file bytes⟩ := by
  unfold readFile readFileAs at read
  split at read
  · cases read
  · split at read
    · cases read
    · next real bytes located =>
      cases read
      exact ⟨real, located⟩
    · cases read

/-- Nothing keeps a file that can be read from being looked up. -/
theorem obstacle?_stateDirectoryAt {name : String} {bytes : List UInt8}
    (read : disk.readFile (path ++ [name]) = .ok bytes) :
    (stateDirectoryAt disk path).obstacle? name = none := by
  obtain ⟨real, located⟩ := locate_of_readFile read
  simp only [stateDirectoryAt, obstacleAt?, located]

/-- A file that can be read in a directory is a document of that state directory. -/
theorem get?_stateDirectoryAt {name : String} {bytes : List UInt8} (named : name ≠ "..")
    (read : disk.readFile (path ++ [name]) = .ok bytes) :
    (stateDirectoryAt disk path).slots.get? name = some (.file bytes) := by
  obtain ⟨real, located⟩ := locate_of_readFile read
  obtain ⟨directory, children, here, present⟩ := exists_child_of_locate named located
  obtain ⟨child, member, rfl⟩ := mem_of_childNamed present
  have document : documentAt? disk path child.1 = some (child.1, .file bytes) := by
    rw [documentAt?, read]
  simp only [stateDirectoryAt, documentsAt, here]
  apply OrderedMap.get?_ofList
  · exact List.mem_filterMap.2 ⟨child, member, document⟩
  · intro pair listed same
    obtain ⟨other, -, found⟩ := List.mem_filterMap.1 listed
    have name : pair.1 = other.1 := by
      unfold documentAt? at found
      split at found
      · cases found
        rfl
      · cases found
    rw [← name, same, document] at found
    cases found
    rfl

end Keeping

/-! ### Failing commands -/

namespace Command

/-- Whether a command comes upon files that are all manifests, although some of them parse. -/
def Overlooks (command : Command) : Prop :=
  ∃ files warnings, gather command.site command.runOptions = .ok (files, warnings) ∧
    hasSource command.environment.grammar files = true ∧ hasOnlyManifests files = true

/-- Whether a command is another one again: over the same contents, with the given store. -/
structure Repeats (again command : Command) (store : Option Store) : Prop where
  grammar : again.environment.grammar = command.environment.grammar
  language : unsupportedLanguage? again.options = unsupportedLanguage? command.options
  rooted : again.site.pathText = command.site.pathText
  contents : gather again.site again.runOptions = gather command.site command.runOptions
  store : again.storeOn again.environment.disk = store

variable {command again : Command} {analysis : Analysis} {kept : Option Store}

/-- What a command says of an analysis, in terms of the files it is about. -/
theorem hasParsed_of_run (ran : command.run = .ok ⟨some analysis, kept⟩) :
    ∃ files warnings, gather command.site command.runOptions = .ok (files, warnings) ∧
      analysis.hasParsed = hasSource command.environment.grammar files ∧
      analysis.files.keys.all (isManifest ·) = hasOnlyManifests files := by
  obtain ⟨files, ⟨warnings, gathered⟩, ⟨own, facts, same, -⟩, -⟩ := analyses_of_run ran
  refine ⟨files, warnings, gathered, ?_, ?_⟩
  · rw [← facts.hasParsed, Analysis.hasParsed, same, Analysis.hasParsed]
  · rw [← facts.hasOnlyManifests, same]

theorem keep_written (supported : unsupportedLanguage? command.options = none)
    (ran : command.run = .ok ⟨some analysis, kept⟩)
    (writable : ∀ failure, command.execute.1 ≠ .unwritable failure) :
    (command.keep ⟨some analysis, kept⟩).failure = none ∧
      command.execute =
        (.replied (replyTo command.options analysis),
          (command.keep ⟨some analysis, kept⟩).disk) := by
  have executed := execute_of_analysis supported ran
  cases failed : (command.keep ⟨some analysis, kept⟩).failure with
  | some failure =>
    rw [failed] at executed
    exact absurd (congrArg Prod.fst executed) (writable failure)
  | none =>
    rw [failed] at executed
    exact ⟨rfl, executed⟩

theorem keep_of_unparsed (unparsed : analysis.hasParsed = false) :
    command.keep ⟨some analysis, kept⟩ = { disk := command.environment.disk } := by
  unfold keep
  cases command.statePath with
  | none => rfl
  | some path => exact keepSnapshot_of_unparsed unparsed

theorem keep_of_parsed {path : List String} {bytes : List UInt8}
    (placed : command.statePath = some path) (found : analysis.hasParsed = true)
    (document : documentOf kept command.site.pathText = some bytes) :
    command.keep ⟨some analysis, kept⟩ =
      command.environment.disk.writeInto (path ++ [keyFileName command.site.pathText]) bytes := by
  unfold keep
  rw [placed]
  exact keepSnapshot_of_parsed found document

theorem keepsFiles_keep (stopped : (command.keep ⟨some analysis, kept⟩).failure ≠ none) :
    KeepsFiles command.environment.disk (command.keep ⟨some analysis, kept⟩).disk := by
  unfold keep at stopped ⊢
  split
  · exact .refl _
  · next path placed =>
    rw [placed] at stopped
    exact keepsFiles_keepSnapshot stopped

/-- A command that fails over an analysis has parsed nothing, unless it overlooks what it parsed. -/
theorem unparsed_of_failing (ran : command.run = .ok ⟨some analysis, kept⟩)
    (failing : (replyTo command.options analysis).exitCode ≠ 0) (sees : ¬ command.Overlooks) :
    analysis.hasParsed = false := by
  obtain ⟨files, warnings, gathered, parsed, manifests⟩ := hasParsed_of_run ran
  rw [ne_eq, exitCode_replyTo_eq_zero_iff] at failing
  by_contra found
  rw [Bool.not_eq_false] at found
  apply sees
  refine ⟨files, warnings, gathered, parsed ▸ found, ?_⟩
  rw [← manifests]
  by_contra other
  exact failing ⟨found, Bool.not_eq_true _ ▸ other⟩

/-- A failing command leaves every file alone, and the whole disk unless the snapshot could not be
kept. -/
theorem disk_of_failing (failing : command.execute.1.exitCode = 1) (sees : ¬ command.Overlooks) :
    KeepsFiles command.environment.disk command.execute.2 ∧
      ((∀ failure, command.execute.1 ≠ .unwritable failure) →
        command.execute.2 = command.environment.disk) := by
  have ends := command.ends
  generalize command.execute.1 = ending at *
  generalize command.execute.2 = after at *
  cases ends with
  | unsupported asked => exact ⟨.refl _, fun _ => rfl⟩
  | failed supported ran => exact ⟨.refl _, fun _ => rfl⟩
  | upToDate supported ran settled => exact ⟨.refl _, fun _ => rfl⟩
  | unwritable supported ran stopped =>
    exact ⟨keepsFiles_keep (by simp [stopped]), fun writable => absurd rfl (writable _)⟩
  | @analysed analysis kept supported ran written =>
    have code : (replyTo command.options analysis).exitCode = 1 := failing
    rw [keep_of_unparsed (unparsed_of_failing ran (by simp [code]) sees)]
    exact ⟨.refl _, fun _ => rfl⟩

/-- A failing command fails again over the same contents. -/
theorem execute_of_repeats (failing : command.execute.1.exitCode = 1) (sees : ¬ command.Overlooks)
    (writable : ∀ failure, command.execute.1 ≠ .unwritable failure)
    (repeats : again.Repeats command (command.storeOn command.environment.disk)) :
    again.execute.1 = command.execute.1 := by
  have alike : Alike command.run again.run := by
    unfold run
    rw [repeats.store, repeats.grammar]
    exact alike_run repeats.rooted repeats.contents _
  have language := repeats.language
  have ends := command.ends
  generalize command.execute.1 = ending at *
  generalize command.execute.2 = after at *
  cases ends with
  | unsupported asked => rw [execute_of_unsupported (language.trans asked)]
  | failed supported ran =>
    rw [ran] at alike
    generalize second : again.run = result at alike
    cases alike
    rw [execute_of_failure (language.trans supported) second]
  | @upToDate kept reply supported ran settled =>
    have code : reply.exitCode = 1 := failing
    rw [settled] at code
    cases code
  | unwritable supported ran stopped => exact absurd rfl (writable _)
  | @analysed analysis kept supported ran written =>
    have code : (replyTo command.options analysis).exitCode = 1 := failing
    have failed : (replyTo command.options analysis).exitCode ≠ 0 := by simp [code]
    have unparsed := unparsed_of_failing ran failed sees
    rw [ran] at alike
    generalize second : again.run = result at alike
    cases alike with
    | @analysed _ analysis' files warnings _ kept' =>
      have nothing : analysis'.hasParsed = false := by
        rw [Analysis.hasParsed, files]
        exact unparsed
      rw [execute_of_analysis (language.trans supported) second, keep_of_unparsed nothing,
        replyTo_congr files warnings failed]

theorem storeOn_of_placed {path : List String} (placed : command.statePath = some path)
    (disk : Disk) : command.storeOn disk =
      some (.documents (stateDirectoryAt disk path) command.environment.nesting) := by
  rw [storeOn, placed, Option.map_some]

/-- What a command keeps of files of which some parse is found in its state directory. -/
theorem ledger_of_keep {path : List String} {files : OrderedMap String (List UInt8)}
    (placed : command.statePath = some path)
    (analyses : Analyses command.environment.grammar command.site command.runOptions
      (command.storeOn command.environment.disk) files analysis kept)
    (source : hasSource command.environment.grammar files = true)
    (written : (command.keep ⟨some analysis, kept⟩).failure = none)
    (allowed : command.environment.disk.denied.contains
      (pathText (path ++ [keyFileName command.site.pathText])) = false) :
    Ledger command.site.pathText
      (.documents (stateDirectoryAt (command.keep ⟨some analysis, kept⟩).disk path)
        command.environment.nesting)
      (some files) := by
  obtain ⟨-, ⟨own, facts, same, stored⟩, -⟩ := analyses
  have parsed : own.hasParsed = true := facts.hasParsed.trans source
  have found : analysis.hasParsed = true := by
    rw [Analysis.hasParsed, same]
    exact parsed
  simp only [storeOn_of_placed placed, storeAfter, parsed, if_true, mapError_eq_ok_iff,
    map_eq_ok_iff] at stored
  obtain ⟨after, taken, rfl⟩ := stored
  obtain ⟨recorded, read, version, -, hashes⟩ :=
    Store.read_of_write facts.legible facts.current taken
  obtain ⟨directory, filed, rfl⟩ := map_eq_ok_iff.1 taken
  obtain ⟨-, free, rfl⟩ := (StateDirectory.write_eq_ok_iff _ _ _ _).1 filed
  rw [Store.read, StateDirectory.read_put free] at read
  rw [keep_of_parsed placed found (documentOf_put _ _ _ _)] at written ⊢
  have reread := readFile_writeInto written allowed
  have held := get?_stateDirectoryAt (keyFileName_ne_ascent command.site.pathText) reread
  have reachable := obstacle?_stateDirectoryAt reread
  refine ⟨some recorded, ?_, ?_, ?_⟩
  · simp only [Store.read, StateDirectory.read, reachable, held]
    exact read
  · rw [Option.map_some, hashes, facts.hashes, Option.map_some]
  · intro other listed
    cases listed
    exact version

/-- Whether a command gets as far as a reply to an analysis. -/
def Returns (command : Command) : Prop :=
  unsupportedLanguage? command.options = none ∧
    (∃ analysis kept, command.run = .ok ⟨some analysis, kept⟩) ∧
    ∀ failure, command.execute.1 ≠ .unwritable failure

theorem exitCode_of_returns (returns : command.Returns) :
    ∃ files warnings, gather command.site command.runOptions = .ok (files, warnings) ∧
      (command.execute.1.exitCode = 0 ↔
        hasSource command.environment.grammar files = true ∧ hasOnlyManifests files = false) := by
  obtain ⟨supported, ⟨analysis, kept, ran⟩, writable⟩ := returns
  obtain ⟨files, warnings, gathered, parsed, manifests⟩ := hasParsed_of_run ran
  refine ⟨files, warnings, gathered, ?_⟩
  rw [(keep_written supported ran writable).2, ← parsed, ← manifests]
  exact exitCode_replyTo_eq_zero_iff command.options analysis

theorem exitCode_of_overlooks (returns : command.Returns) (overlooks : command.Overlooks) :
    command.execute.1.exitCode = 1 := by
  obtain ⟨files, warnings, gathered, source, manifests⟩ := overlooks
  obtain ⟨files', warnings', gathered', zero⟩ := exitCode_of_returns returns
  cases gathered.symm.trans gathered'
  obtain ⟨supported, ⟨analysis, kept, ran⟩, writable⟩ := returns
  have bound := exitCode_replyTo_le command.options analysis
  have code : command.execute.1.exitCode = (replyTo command.options analysis).exitCode := by
    rw [(keep_written supported ran writable).2]
    rfl
  have nonzero : command.execute.1.exitCode ≠ 0 := by
    rw [ne_eq, zero, manifests]
    simp
  omega

/-- A command that overlooks what it parsed has kept its snapshot, and is up to date after that. -/
theorem upToDate_of_overlooks {path : List String} (returns : command.Returns)
    (overlooks : command.Overlooks) (placed : command.statePath = some path)
    (allowed : command.environment.disk.denied.contains
      (pathText (path ++ [keyFileName command.site.pathText])) = false) :
    (stateDirectoryAt command.execute.2 path).read command.environment.nesting.limit
          command.site.pathText ≠
        (stateDirectoryAt command.environment.disk path).read command.environment.nesting.limit
          command.site.pathText ∧
      ∀ again : Command, again.Repeats command (command.storeOn command.execute.2) →
        again.execute.1.exitCode = 0 := by
  obtain ⟨files, warnings, gathered, source, manifests⟩ := overlooks
  obtain ⟨supported, ⟨analysis, kept, ran⟩, writable⟩ := returns
  obtain ⟨written, executed⟩ := keep_written supported ran writable
  obtain ⟨files', analyses⟩ := analyses_of_run ran
  obtain ⟨warnings', gathered'⟩ := analyses.gathered
  cases gathered.symm.trans gathered'
  have ledger := ledger_of_keep placed analyses source written allowed
  rw [executed]
  constructor
  · intro unchanged
    obtain ⟨previous, verdict, held, compared, decided⟩ := ledger.isUpToDate files
    obtain ⟨before, looked, stale⟩ := analyses.stale
    simp only [storeOn_of_placed placed, previousSnapshot, mapError_eq_ok_iff] at looked
    rw [Store.read, unchanged] at held
    cases looked.symm.trans held
    cases compared.symm.trans stale
    exact absurd (decided.2 rfl) (by decide)
  · intro again repeats
    have store := repeats.store
    rw [storeOn_of_placed placed] at store
    generalize stateDirectoryAt (command.keep ⟨some analysis, kept⟩).disk path = directory
      at ledger store
    have visited : runWith (standardParser again.environment.grammar)
        (Visit.mk again.site again.runOptions).site (Visit.mk again.site again.runOptions).options
          (some (.documents directory command.environment.nesting)) =
        .ok ⟨none, some (.documents directory command.environment.nesting)⟩ :=
      ledger.visit_of_recorded repeats.rooted (repeats.contents.trans gathered)
        (Option.map_some _ _)
    have reread : again.run =
        .ok ⟨none, some (.documents directory command.environment.nesting)⟩ := by
      rw [run, store, Repository.run]
      exact visited
    obtain ⟨reply, settled, replied⟩ :=
      execute_of_upToDate (repeats.language.trans supported) reread
    rw [replied]
    exact settled

end Command

/-! ### Command lines -/

theorem environment_of_understand {environment : Environment} {arguments : List String}
    {command : Command} (understood : understand environment arguments = .ok (some command)) :
    command.environment = environment := by
  unfold understand at understood
  split at understood
  · cases understood
  · split at understood
    · cases understood
    · split at understood
      · cases understood
      · split at understood
        · cases understood
          rfl
        · split at understood
          · cases understood
          · cases understood
            rfl

/-- A command line that exits with code 1 was understood. -/
theorem understand_of_exitCode {environment : Environment} {arguments : List String}
    (failing : (execute environment arguments).1.exitCode = 1) :
    ∃ command, understand environment arguments = .ok (some command) := by
  rw [execute_eq] at failing
  rcases understood : understand environment arguments with flaw | _ | command
  · rw [understood] at failing
    cases failing
  · rw [understood] at failing
    cases failing
  · exact ⟨command, rfl⟩

/-! ### A setup script and nothing else -/

section SetupScript

/-- A machine with a repository whose only file is an empty setup script, and with a state directory
of the given entries. -/
def setupEnvironment (kept : List (String × Entry)) : Environment :=
  { disk :=
      { root := .directory
          [("home", .directory [("setup.py", .file [])]), ("state", .directory kept)] }
    workingDirectory := ["home"]
    now := .zero }

/-- A command over this repository. -/
def setupCommand (kept : List (String × Entry)) : Command :=
  { environment := setupEnvironment kept
    options := { root := "/home", stateDirectory := some "/state" }
    root := ["home"]
    statePath := some ["state"] }

variable (kept : List (String × Entry))

theorem understand_setup : understand (setupEnvironment kept) ["--state-dir", "/state", "/home"] =
    .ok (some (setupCommand kept)) := by
  cbv

theorem execute_setup : execute (setupEnvironment kept) ["--state-dir", "/state", "/home"] =
    (setupCommand kept).execute := by
  rw [execute_eq, understand_setup]

theorem site_setup :
    (setupCommand kept).site = { disk := (setupEnvironment kept).disk, root := ["home"] } := by
  have resolved : (setupEnvironment kept).disk.resolve ["home"] = ["home"] := by cbv
  rw [Command.site, setupCommand, resolved]
  rfl

theorem pathText_setup : (setupCommand kept).site.pathText = "/home" := by
  rw [site_setup]
  rfl

theorem discoverFiles_setup : discoverFiles (setupCommand kept).site {} = .ok ["setup.py"] := by
  have located : (setupEnvironment kept).disk.locate ["home"] =
      .ok ⟨["home"], .directory [("setup.py", .file [])]⟩ := by
    cbv
  have hidden : isHidden "setup.py" = false := by decide
  rw [site_setup]
  generalize same : ({ disk := (setupEnvironment kept).disk, root := ["home"] } : Site) = site
  have unversioned : site.trackedFiles? = none := by
    rw [← same]
    cbv
  have unread : ignoreLines site = .ok [] := by
    rw [← same]
    cbv
  have listed : listingOf site = .ok (.ignoring (Ignore.isIgnored [])) := by
    rw [listingOf, unversioned, ignoredBy, unread, ← same]
    rfl
  have wanted : isWanted site (.ignoring (Ignore.isIgnored [])) (fun _ => false) {}
      ⟨["setup.py"], 0⟩ = true := by
    rw [← same]
    cbv
  have found : allFiles site = [⟨["setup.py"], 0⟩] := by
    simp [← same, allFiles, located, Repository.walk, walkEntry, hidden]
  rw [discoverFiles_of_listingOf listed rfl, discover, found, List.filter_singleton, wanted]
  simp only [cond_true, List.map_singleton, List.mergeSort_singleton]
  decide

theorem gather_setup : gather (setupCommand kept).site (setupCommand kept).runOptions =
    .ok (OrderedMap.ofList [("setup.py", [])], []) := by
  have segments : segmentsFrom ["home"] "setup.py" = ["home", "setup.py"] := by decide
  have placed : (setupEnvironment kept).disk.place ["home", "setup.py"] =
      .ok ⟨["home", "setup.py"], some (.file [])⟩ := by
    simp +decide [place, placeFrom, childNamed, setupEnvironment]
  have read (text : String) :
      (setupEnvironment kept).disk.readFileAs text ["home", "setup.py"] = .ok [] := by
    rw [readFileAs, locate, placed]
    rfl
  have files : readFiles (setupCommand kept).site ["setup.py"] =
      (OrderedMap.ofList [("setup.py", [])], []) := by
    simp only [readFiles, site_setup, List.map, segments, read, List.filterMap, Except.toOption,
      Option.map_some]
  rw [gather]
  change (discoverFiles (setupCommand kept).site {} >>= _) = _
  rw [discoverFiles_setup]
  exact congrArg Except.ok files

theorem overlooks_setup : (setupCommand kept).Overlooks :=
  ⟨_, _, gather_setup kept, by cbv, by cbv⟩

theorem answers_setup : ∀ entry ∈ (OrderedMap.ofList [("setup.py", ([] : List UInt8))]).entries,
    Answers (standardParser Source.statements) entry.1 entry.2 := by
  intro entry member
  rcases List.mem_singleton.1 member with rfl
  constructor
  · intro reason failed
    cases failed
  · intro outline outlined
    have parsed : outlineOf (standardParser Source.statements) "setup.py" (.raw []) =
        some { language := "python" } := by
      cbv
    cases parsed.symm.trans outlined
    decide

/-- The first command over the repository keeps one document, if any. -/
theorem keep_setup (outcome : Run) :
    ∃ kept, (setupCommand []).keep outcome = { disk := (setupEnvironment kept).disk } := by
  have named : keyFileName "/home" = "home.json" := by decide
  have ready : (setupEnvironment []).disk.ensureDirectory ["state"] =
      { disk := (setupEnvironment []).disk } := by
    cbv
  have placed : (setupEnvironment []).disk.place ["state", "home.json"] =
      .ok ⟨["state", "home.json"], none⟩ := by
    simp +decide [place, placeFrom, childNamed, setupEnvironment]
  have written (bytes : List UInt8) :
      (setupEnvironment []).disk.writeInto ["state", "home.json"] bytes =
        { disk := (setupEnvironment [("home.json", .file bytes)]).disk } := by
    have directory : ["state", "home.json"].dropLast = ["state"] := rfl
    rw [writeInto, directory, ready]
    simp only [Outcome.andThen, writeFile, placed]
    rfl
  change ∃ kept, keepSnapshot (setupEnvironment []).disk ["state"]
    (setupCommand []).site.pathText outcome = _
  rw [pathText_setup, keepSnapshot, named]
  split
  · next bytes _ _ => exact ⟨_, written bytes⟩
  · exact ⟨[], rfl⟩

theorem returns_setup : (setupCommand []).Returns := by
  have supported : unsupportedLanguage? (setupCommand []).options = none := rfl
  have rooted : (Visit.mk (setupCommand []).site (setupCommand []).runOptions).site.pathText =
      "/home" := pathText_setup []
  let store : Store := .documents (stateDirectoryAt (setupEnvironment []).disk ["state"]) {}
  have stored : (setupCommand []).storeOn (setupEnvironment []).disk = some store := rfl
  have unheld : store.read "/home" = .ok none := by cbv
  have free : store.isFree "/home" = true := by cbv
  have ledger : Ledger "/home" store none := ⟨none, unheld, rfl, by simp⟩
  obtain ⟨⟨result, after⟩, returned⟩ :=
    ledger.exists_runWith rooted (gather_setup []) free answers_setup
  have ran : (setupCommand []).run = .ok ⟨result, after⟩ := by
    change Repository.run _ _ _ ((setupCommand []).storeOn (setupEnvironment []).disk) = _
    rw [stored]
    exact returned
  obtain ⟨_, _, _, ends⟩ := ledger.ends_of_runWith rooted (gather_setup []) returned
  have analysed : ∃ analysis, result = some analysis := by
    cases ends with
    | upToDate same => cases same
    | recorded => exact ⟨_, rfl⟩
    | unparsed => exact ⟨_, rfl⟩
  obtain ⟨analysis, rfl⟩ := analysed
  refine ⟨supported, ⟨analysis, after, ran⟩, ?_⟩
  intro failure stopped
  obtain ⟨kept, keeps⟩ := keep_setup ⟨some analysis, after⟩
  rw [Command.execute_of_analysis supported ran, keeps] at stopped
  cases stopped

theorem disk_execute_setup :
    ∃ kept, (setupCommand []).execute.2 = (setupEnvironment kept).disk := by
  obtain ⟨supported, ⟨analysis, after, ran⟩, writable⟩ := returns_setup
  obtain ⟨kept, keeps⟩ := keep_setup ⟨some analysis, after⟩
  rw [(Command.keep_written supported ran writable).2, keeps]
  exact ⟨kept, rfl⟩

end SetupScript

/-! ### The outcome of a command line -/

/-- The exit code of every command, and what a failing one leaves.  A command that gets as far as a
reply succeeds exactly if some file parses and not all are manifests.  A failing command changes no
file, and fails again over the same contents, unless it overlooks what it parsed: then its snapshot
has been kept, and the same command succeeds over the same contents. -/
theorem failing_commands_and_their_store (environment : Environment) (arguments : List String) :
    let ending := (execute environment arguments).1
    let after := (execute environment arguments).2
    (ending.exitCode = 1 → ∃ command, understand environment arguments = .ok (some command)) ∧
    ∀ command, understand environment arguments = .ok (some command) →
      (command.Returns →
        ∃ files warnings, gather command.site command.runOptions = .ok (files, warnings) ∧
          (ending.exitCode = 0 ↔
            hasSource environment.grammar files = true ∧ hasOnlyManifests files = false)) ∧
      (ending.exitCode = 1 → ¬ command.Overlooks →
        KeepsFiles environment.disk after ∧
        ((∀ failure, ending ≠ .unwritable failure) →
          after = environment.disk ∧
          ∀ again : Command, again.Repeats command (command.storeOn after) →
            again.execute.1 = ending)) ∧
      (command.Returns → command.Overlooks →
        ending.exitCode = 1 ∧
        ∀ path, command.statePath = some path →
          environment.disk.denied.contains
            (pathText (path ++ [keyFileName command.site.pathText])) = false →
          (stateDirectoryAt after path).read environment.nesting.limit command.site.pathText ≠
              (stateDirectoryAt environment.disk path).read environment.nesting.limit
                command.site.pathText ∧
          ∀ again : Command, again.Repeats command (command.storeOn after) →
            again.execute.1.exitCode = 0) := by
  intro ending after
  refine ⟨understand_of_exitCode, ?_⟩
  intro command understood
  have executed : execute environment arguments = command.execute := by
    rw [execute_eq, understood]
  obtain rfl := environment_of_understand understood
  simp only [ending, after, executed]
  refine ⟨Command.exitCode_of_returns, ?_, ?_⟩
  · intro failing sees
    obtain ⟨keeps, unchanged⟩ := Command.disk_of_failing failing sees
    refine ⟨keeps, fun writable => ⟨unchanged writable, ?_⟩⟩
    rw [unchanged writable]
    intro again repeats
    exact Command.execute_of_repeats failing sees writable repeats
  · intro returns overlooks
    refine ⟨Command.exitCode_of_overlooks returns overlooks, ?_⟩
    intro path placed allowed
    exact Command.upToDate_of_overlooks returns overlooks placed allowed

/-- Over a setup script alone, a command fails, and the same command succeeds right after it. -/
theorem setup_script_fails_once :
    let arguments := ["--state-dir", "/state", "/home"]
    let first := execute (setupEnvironment []) arguments
    let second := execute { setupEnvironment [] with disk := first.2 } arguments
    first.1.exitCode = 1 ∧ second.1.exitCode = 0 := by
  intro arguments first second
  obtain ⟨-, -, overlooked⟩ :=
    (failing_commands_and_their_store (setupEnvironment []) arguments).2 _ (understand_setup [])
  obtain ⟨failed, later⟩ := overlooked returns_setup (overlooks_setup [])
  refine ⟨failed, ?_⟩
  have executed : first.2 = (setupCommand []).execute.2 := by
    rw [← execute_setup]
  obtain ⟨kept, left⟩ := disk_execute_setup
  have again : second = (setupCommand kept).execute := by
    simp only [second, executed, left]
    exact execute_setup kept
  rw [again]
  apply (later ["state"] rfl rfl).2
  constructor
  · rfl
  · rfl
  · rw [pathText_setup, pathText_setup]
  · rw [gather_setup, gather_setup]
  · change _ = (setupCommand []).storeOn first.2
    rw [executed, left]
    rfl

end RepoAtlas.CommandLine
