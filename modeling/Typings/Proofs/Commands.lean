import Typings.Proofs.FileTrees
import Typings.Proofs.Segments

/-! # What a generation leaves behind

A command that generates declarations reads its inputs and makes the declarations before it writes
anything. So nothing changes when an input cannot be loaded or the declarations cannot be made, and
everything that is written comes from one run.

* `Inputs.Make`, `Inputs.Fail`: the run on what the files hold, and what keeps it from a result.
* `GenerateOptions.Delivers`, `GenerateOptions.Reports`: the declarations and the report are where
  they are wanted.
* `GenerateOptions.Leaves`, `GenerateOptions.ReportRefused`: what there is once something has been
  written, and what there is if the report could not be.
* `GenerateOptions.perform_writeGeneration`, `perform_runGenerate`: how the writing and the command
  end.
* `runProgram_generate`: all of it for a command line.
-/

namespace Typings

/-! ## Loading -/

section
variable (inputs : Inputs) (yaml : YamlReader) (stage : Stage)

/-- The files on the stage hold these inputs. -/
structure Inputs.Load (document : Schema.Document) (overrides : OverrideStore) (config : Config) :
    Prop where
  schema : (perform (loadSchema inputs.schema).run stage).1 = .ok document
  overrides : (perform (loadOverrides yaml inputs.overrides).run stage).1 = .ok overrides
  config : (perform (loadConfig yaml inputs.config).run stage).1 = .ok config

/-- The inputs on the stage make the run. -/
def Inputs.Make (run : Generation) : Prop :=
  ∃ document overrides config, inputs.Load yaml stage document overrides config ∧
    generate document overrides config = .ok run

/-- One of the inputs cannot be loaded, or the declarations cannot be made. -/
inductive Inputs.Fail : Prop
  | schema {message : String}
      (failed : (perform (loadSchema inputs.schema).run stage).1 = .error message)
  | overrides {message : String}
      (failed : (perform (loadOverrides yaml inputs.overrides).run stage).1 = .error message)
  | config {message : String}
      (failed : (perform (loadConfig yaml inputs.config).run stage).1 = .error message)
  | generation {document : Schema.Document} {overrides : OverrideStore} {config : Config}
      {e : SynthesisError} (load : inputs.Load yaml stage document overrides config)
      (failed : generate document overrides config = .error e)

end

variable {inputs : Inputs} {yaml : YamlReader} {stage : Stage}

theorem OnlyReads.perform_of_result {α : Type} {program : StateM Stage α} {x : α}
    (reads : OnlyReads program) (result : (perform program stage).1 = x) :
    perform program stage = (x, stage) := by
  rw [reads.perform_eq, result]

/-- Once the inputs are loaded, only the run itself can fail. Nothing has been written so far. -/
theorem Inputs.Load.perform_loadGeneration {document : Schema.Document} {overrides : OverrideStore}
    {config : Config} (load : inputs.Load yaml stage document overrides config) :
    perform (loadGeneration yaml inputs).run stage =
      ((generate document overrides config).mapError SynthesisError.message, stage) := by
  have schema := (loadSchema_reads _).perform_of_result load.schema
  have overrides := (loadOverrides_reads _ _).perform_of_result load.overrides
  have config := (loadConfig_reads _ _).perform_of_result load.config
  rw [loadGeneration, perform_run_bind_ok _ schema, perform_run_bind_ok _ overrides,
    perform_run_bind_ok _ config]
  cases generate _ _ _ <;> rfl

theorem Inputs.Make.perform_loadGeneration {run : Generation} (make : inputs.Make yaml stage run) :
    perform (loadGeneration yaml inputs).run stage = (.ok run, stage) := by
  obtain ⟨document, overrides, config, load, success⟩ := make
  rw [load.perform_loadGeneration, success]
  rfl

/-- The inputs are loaded one after the other, and the first failure is the end of it. -/
theorem Inputs.fail_or_make (inputs : Inputs) (yaml : YamlReader) (stage : Stage) :
    (inputs.Fail yaml stage ∧
      ∃ message, perform (loadGeneration yaml inputs).run stage = (.error message, stage)) ∨
    ∃ run, inputs.Make yaml stage run := by
  cases schema : (perform (loadSchema inputs.schema).run stage).1 with
  | error message =>
    have failed := (loadSchema_reads _).perform_of_result schema
    exact .inl ⟨.schema schema, message, perform_run_bind_error _ failed⟩
  | ok document =>
    have schema' := (loadSchema_reads _).perform_of_result schema
    cases overrides : (perform (loadOverrides yaml inputs.overrides).run stage).1 with
    | error message =>
      have failed := (loadOverrides_reads _ _).perform_of_result overrides
      refine .inl ⟨.overrides overrides, message, ?_⟩
      rw [loadGeneration, perform_run_bind_ok _ schema', perform_run_bind_error _ failed]
    | ok store =>
      have overrides' := (loadOverrides_reads _ _).perform_of_result overrides
      cases config : (perform (loadConfig yaml inputs.config).run stage).1 with
      | error message =>
        have failed := (loadConfig_reads _ _).perform_of_result config
        refine .inl ⟨.config config, message, ?_⟩
        rw [loadGeneration, perform_run_bind_ok _ schema', perform_run_bind_ok _ overrides',
          perform_run_bind_error _ failed]
      | ok settings =>
        have load : inputs.Load yaml stage document store settings := ⟨schema, overrides, config⟩
        cases success : generate document store settings with
        | error e =>
          refine .inl ⟨.generation load success, e.message, ?_⟩
          rw [load.perform_loadGeneration, success]
          rfl
        | ok run => exact .inr ⟨run, _, _, _, load, success⟩

/-- Loading is deterministic, so that inputs do not both make a run and fail. -/
theorem Inputs.Make.not_fail {run : Generation} (make : inputs.Make yaml stage run) :
    ¬ inputs.Fail yaml stage := by
  obtain ⟨document, store, settings, load, success⟩ := make
  intro fails
  cases fails with
  | schema failed =>
    rw [load.schema] at failed
    cases failed
  | overrides failed =>
    rw [load.overrides] at failed
    cases failed
  | config failed =>
    rw [load.config] at failed
    cases failed
  | generation load' failed =>
    -- The files hold one document, one store and one configuration.
    obtain rfl := Except.ok.inj (load.schema.symm.trans load'.schema)
    obtain rfl := Except.ok.inj (load.overrides.symm.trans load'.overrides)
    obtain rfl := Except.ok.inj (load.config.symm.trans load'.config)
    rw [success] at failed
    cases failed

theorem generate_outputDigest {document : Schema.Document} {store : OverrideStore} {config : Config}
    {run : Generation} (success : generate document store config = .ok run) :
    run.report.outputDigest = Digest.sha256 (printDeclarations run.declarations) := by
  obtain ⟨_, made, session, _, rfl⟩ := generate_eq_ok.1 success
  rfl

/-! ## Writing -/

namespace GenerateOptions

variable (options : GenerateOptions) (run : Generation)

/-- The declarations are where the options want them, in the format that they ask for. -/
def Delivers (stage final : Stage) : Prop :=
  match options.output with
  | some path =>
    final.tree.read path = .ok (formatDeclarations options.format run.declarations)
  | none => final.output = stage.output ++ formatDeclarations options.format run.declarations

/-- The report is where the options want it, in the format that they ask for. -/
def Reports (tree : FileTree) : Prop :=
  ∀ path, options.report = some path →
    tree.read path = .ok (run.report.format options.reportFormat)

/-- The text that the options give to the place for declarations. -/
def OutputText (tree : FileTree) (place : List String) (text : String) : Prop :=
  ∃ path, options.output = some path ∧ tree.locate path = .ok place ∧
    text = formatDeclarations options.format run.declarations

/-- The text that the options give to the place for a report. -/
def ReportText (tree : FileTree) (place : List String) (text : String) : Prop :=
  ∃ path, options.report = some path ∧ tree.locate path = .ok place ∧
    text = run.report.format options.reportFormat

/-- The declarations and the report are not for one file. -/
def Apart (tree : FileTree) : Prop :=
  ∀ output report, options.output = some output → options.report = some report →
    tree.locate output ≠ tree.locate report

def deliver {m : Type → Type} [Monad m] [FileAccess m] [Console m] : ExceptT String m Unit := do
  let text := formatDeclarations options.format run.declarations
  match options.output with
  | some path =>
    writeNamed path text
    Console.print
      ("Wrote " ++ toString run.declarations.length ++ " declaration(s) to '" ++ path ++ "'.\n")
  | none => Console.print text

/-- Writes the report, if one is asked for. -/
def fileReport {m : Type → Type} [Monad m] [FileAccess m] : ExceptT String m Unit :=
  match options.report with
  | some path => writeNamed path (run.report.format options.reportFormat)
  | none => return ()

end GenerateOptions

variable {options : GenerateOptions} {run : Generation}

theorem writeGeneration_eq (options : GenerateOptions) (run : Generation) :
    (writeGeneration options run : ExceptT String (StateM Stage) Unit) = (do
      options.deliver run
      options.fileReport run) := by
  rw [writeGeneration, GenerateOptions.deliver, GenerateOptions.fileReport]
  cases options.output with
  | none => rfl
  | some path => exact (bind_assoc _ _ _).symm

/-- The error of a file that cannot be written becomes its message. -/
theorem perform_writeNamed (path text : String) (stage : Stage) :
    perform (writeNamed path text : ExceptT String (StateM Stage) Unit).run stage =
      ((perform (writeText path text) stage).1.mapError WriteError.message,
        (perform (writeText path text) stage).2) := by
  rw [writeNamed, writeText_lift]
  rcases ran : perform (writeText path text) stage with ⟨result, final⟩
  rw [perform_run_bind_ok _ (perform_run_lift ran)]
  cases result <;> rfl

namespace GenerateOptions

/-- The declarations are delivered, or nothing is made but directories. -/
theorem perform_deliver (options : GenerateOptions) (run : Generation) (stage : Stage) :
    ∃ result final,
      perform (options.deliver run : ExceptT String (StateM Stage) Unit).run stage =
        (result, final) ∧
      match result with
      | .ok () => options.Delivers run stage final ∧
          stage.tree.Extends (options.OutputText run final.tree) final.tree
      | .error _ => stage.Extends FileTree.noTexts final := by
  rw [deliver]
  cases given : options.output with
  | none =>
    refine ⟨.ok (), _, rfl, ?_, .refl _ _⟩
    simp only [Delivers, given]
  | some path =>
    have wrote := writeText_wrote path (formatDeclarations options.format run.declarations) stage
    have named := perform_writeNamed path (formatDeclarations options.format run.declarations) stage
    dsimp only
    rcases ran : perform (writeText path (formatDeclarations options.format run.declarations))
      stage with ⟨result, written⟩
    rw [ran] at wrote named
    cases wrote with
    | failed e grows => exact ⟨_, _, perform_run_bind_error _ named, grows⟩
    | done holds grows =>
      refine ⟨_, _, perform_run_bind_ok _ named, ?_, grows.tree.mono ?_⟩
      · simpa only [Delivers, given] using holds
      · rintro place _ ⟨leads, rfl⟩
        exact ⟨path, given, leads, rfl⟩

/-- The report is filed, or it cannot be written and nothing is made but directories. -/
theorem perform_fileReport (options : GenerateOptions) (run : Generation) (stage : Stage) :
    ∃ result final,
      perform (options.fileReport run : ExceptT String (StateM Stage) Unit).run stage =
        (result, final) ∧
      match result with
      | .ok () => options.Reports run final.tree ∧
          stage.Extends (options.ReportText run final.tree) final
      | .error _ => stage.Extends FileTree.noTexts final ∧
          ∃ path e, options.report = some path ∧
            (perform (writeText path (run.report.format options.reportFormat)) stage).1 =
              .error e := by
  rw [fileReport]
  cases given : options.report with
  | none =>
    refine ⟨.ok (), stage, rfl, fun path asked => ?_, .refl _ _⟩
    rw [given] at asked
    cases asked
  | some path =>
    have wrote := writeText_wrote path (run.report.format options.reportFormat) stage
    have named := perform_writeNamed path (run.report.format options.reportFormat) stage
    dsimp only
    rcases ran : perform (writeText path (run.report.format options.reportFormat)) stage with
      ⟨result, final⟩
    rw [ran] at wrote named
    cases wrote with
    | failed e grows => exact ⟨_, _, named, grows, path, e, rfl, by rw [ran]⟩
    | done holds grows =>
      refine ⟨_, _, named, fun other asked => ?_, grows.mono ?_⟩
      · obtain rfl := Option.some.inj (given.symm.trans asked)
        exact holds
      · rintro place _ ⟨leads, rfl⟩
        exact ⟨path, given, leads, rfl⟩

/-- What is left behind once something has been written. -/
structure Leaves (options : GenerateOptions) (run : Generation) (stage final : Stage) : Prop where
  output : options.Apart final.tree → options.Delivers run stage final
  tree : stage.tree.Extends (fun place text => options.OutputText run final.tree place text ∨
    options.ReportText run final.tree place text) final.tree

/-- The messages do not matter. -/
theorem Delivers.congr {stage final final' : Stage} (delivers : options.Delivers run stage final)
    (sameTree : final'.tree = final.tree) (sameOutput : final'.output = final.output) :
    options.Delivers run stage final' := by
  rw [Delivers] at delivers ⊢
  rwa [sameTree, sameOutput]

theorem Leaves.congr {stage final final' : Stage} (leaves : options.Leaves run stage final)
    (sameTree : final'.tree = final.tree) (sameOutput : final'.output = final.output) :
    options.Leaves run stage final' :=
  ⟨fun apart => (leaves.output (sameTree ▸ apart)).congr sameTree sameOutput,
    sameTree ▸ leaves.tree⟩

theorem OutputText.mono {tree tree' : FileTree} {texts : List String → String → Prop}
    (grows : tree.Extends texts tree') {place : List String} {text : String}
    (isText : options.OutputText run tree place text) :
    options.OutputText run tree' place text := by
  obtain ⟨path, given, leads, rfl⟩ := isText
  exact ⟨path, given, grows.locate leads, rfl⟩

/-- What follows does not take the declarations away, unless it puts a text in their place. -/
theorem Delivers.keep {stage between final : Stage} {texts : List String → String → Prop}
    (delivers : options.Delivers run stage between) (grows : between.Extends texts final)
    (untouched : ∀ output, options.output = some output →
      ∀ place, final.tree.locate output = .ok place → ∀ text, ¬ texts place text) :
    options.Delivers run stage final := by
  rw [Delivers] at delivers ⊢
  cases given : options.output with
  | none =>
    simp only [given] at delivers ⊢
    rw [grows.output, delivers]
  | some output =>
    simp only [given] at delivers ⊢
    exact grows.tree.read delivers (untouched output given)

/-- A report at the place of the declarations would be in their file. -/
theorem Apart.untouched {tree : FileTree} (apart : options.Apart tree) {output : String}
    (given : options.output = some output) {place : List String}
    (leads : tree.locate output = .ok place) (text : String) :
    ¬ options.ReportText run tree place text := by
  rintro ⟨report, givenReport, leadsReport, _⟩
  exact apart output report given givenReport (leads.trans leadsReport.symm)

/-- The report could not be written behind the declarations, which are all that has been written. -/
structure ReportRefused (options : GenerateOptions) (run : Generation) (stage final : Stage) :
    Prop where
  refused : ∃ between path e,
    perform (options.deliver run : ExceptT String (StateM Stage) Unit).run stage =
      (.ok (), between) ∧
    options.report = some path ∧
    (perform (writeText path (run.report.format options.reportFormat)) between).1 = .error e
  delivers : options.Delivers run stage final
  tree : stage.tree.Extends (options.OutputText run final.tree) final.tree

theorem ReportRefused.leaves {stage final : Stage}
    (refused : options.ReportRefused run stage final) : options.Leaves run stage final :=
  ⟨fun _ => refused.delivers, refused.tree.mono fun _ _ => .inl⟩

theorem ReportRefused.congr {stage final final' : Stage}
    (refused : options.ReportRefused run stage final) (sameTree : final'.tree = final.tree)
    (sameOutput : final'.output = final.output) : options.ReportRefused run stage final' :=
  ⟨refused.refused, refused.delivers.congr sameTree sameOutput, sameTree ▸ refused.tree⟩

/-- Where the declarations are not wanted, there is no new file. -/
theorem ReportRefused.file_old {stage final : Stage}
    (refused : options.ReportRefused run stage final) {place : List String} {text : String}
    (found : final.tree.node? place = some (.file text))
    (elsewhere : ∀ path, options.output = some path → final.tree.locate path ≠ .ok place) :
    stage.tree.node? place = some (.file text) := by
  have change := refused.tree.nodes place
  rw [found] at change
  rcases change.file with old | ⟨path, given, leads, _⟩
  · exact old
  · exact absurd leads (elsewhere path given)

/-- How the writing ends: with everything in its place, without the report, or with nothing. -/
inductive Writes (options : GenerateOptions) (run : Generation) (stage : Stage) :
    Except String Unit → Stage → Prop
  | all {final : Stage} (leaves : options.Leaves run stage final)
      (reports : options.Reports run final.tree) : Writes options run stage (.ok ()) final
  | unreported {message : String} {final : Stage}
      (refused : options.ReportRefused run stage final) :
      Writes options run stage (.error message) final
  | nothing {message : String} {final : Stage} (grows : stage.Extends FileTree.noTexts final) :
      Writes options run stage (.error message) final

/-- The report is written behind the declarations. It can replace them or be refused, but it does
not come without them. -/
theorem perform_writeGeneration (options : GenerateOptions) (run : Generation) (stage : Stage) :
    ∃ result final,
      perform (writeGeneration options run : ExceptT String (StateM Stage) Unit).run stage =
        (result, final) ∧ options.Writes run stage result final := by
  obtain ⟨delivered, between, ran, written⟩ := perform_deliver options run stage
  rw [writeGeneration_eq]
  cases delivered with
  | error message => exact ⟨_, _, perform_run_bind_error _ ran, .nothing written⟩
  | ok =>
    obtain ⟨result, final, ranReport, filed⟩ := perform_fileReport options run between
    obtain ⟨delivers, grew⟩ := written
    refine ⟨result, final, (perform_run_bind_ok _ ran).trans ranReport, ?_⟩
    cases result with
    | ok =>
      obtain ⟨reports, grows⟩ := filed
      have keeps (apart : options.Apart final.tree) : options.Delivers run stage final :=
        delivers.keep grows fun _ given _ => apart.untouched given
      refine .all ⟨keeps, ?_⟩ reports
      refine (grew.mono fun place text isText => ?_).trans (grows.tree.mono fun _ _ => .inr)
      exact .inl (isText.mono grows.tree)
    | error message =>
      obtain ⟨grows, path, e, asked, failed⟩ := filed
      have delivers := delivers.keep grows fun _ _ _ _ _ => id
      refine .unreported ⟨⟨between, path, e, ran, asked, failed⟩, delivers, ?_⟩
      refine (grew.mono fun place text isText => isText.mono grows.tree).trans ?_
      exact grows.tree.mono fun _ _ => False.elim

/-- The exit code of a run whose results have all been written. -/
def exitCode (options : GenerateOptions) (run : Generation) : Nat :=
  if !run.report.advisories.isEmpty && options.denyAdvisories then 1 else 0

end GenerateOptions

/-! ## The command -/

/-- Telling the advisories changes nothing but the messages, and fails if they are denied. -/
theorem perform_tellAdvisories (options : GenerateOptions) (run : Generation) (stage : Stage) :
    ∃ result final,
      perform (tellAdvisories options run.report : ExceptT String (StateM Stage) Unit).run stage =
        (result, final) ∧
      (if result.isOk then 0 else 1) = options.exitCode run ∧
      final.tree = stage.tree ∧ final.output = stage.output := by
  rw [tellAdvisories, GenerateOptions.exitCode]
  by_cases silent : run.report.advisories.isEmpty
  · rw [if_pos silent, silent]
    exact ⟨_, _, rfl, rfl, rfl, rfl⟩
  · rw [if_neg silent, Bool.eq_false_of_not_eq_true silent]
    by_cases denies : options.denyAdvisories
    · rw [if_pos denies, denies]
      exact ⟨_, _, rfl, rfl, rfl, rfl⟩
    · rw [if_neg denies, Bool.eq_false_of_not_eq_true denies]
      exact ⟨_, _, rfl, rfl, rfl, rfl⟩

/-- The program has put a text into a file, or it has printed one. -/
def HasWritten (stage final : Stage) : Prop :=
  final.output ≠ stage.output ∨ ∃ place text, final.tree.node? place = some (.file text) ∧
    stage.tree.node? place ≠ some (.file text)

theorem HasWritten.congr {stage final final' : Stage} (hasWritten : HasWritten stage final')
    (sameTree : final'.tree = final.tree) (sameOutput : final'.output = final.output) :
    HasWritten stage final := by
  rwa [HasWritten, sameTree, sameOutput] at hasWritten

theorem Stage.Extends.not_hasWritten {stage final : Stage}
    (grows : stage.Extends FileTree.noTexts final) : ¬ HasWritten stage final := by
  rintro (prints | ⟨place, text, found, isNew⟩)
  · exact prints grows.output
  · have change := grows.tree.nodes place
    rw [found] at change
    exact change.file.elim isNew id

/-- How a generation ends that has made declarations, with its exit code. -/
inductive GenerateOptions.Ends (options : GenerateOptions) (run : Generation) (stage : Stage) :
    Nat → Stage → Prop
  | complete {final : Stage} (leaves : options.Leaves run stage final)
      (reports : options.Reports run final.tree) :
      Ends options run stage (options.exitCode run) final
  | unreported {final : Stage} (refused : options.ReportRefused run stage final) :
      Ends options run stage 1 final
  | unwritten {final : Stage} (nothing : ¬ HasWritten stage final) : Ends options run stage 1 final

theorem GenerateOptions.Ends.congr {options : GenerateOptions} {run : Generation} {code : Nat}
    {stage final final' : Stage} (ends : options.Ends run stage code final)
    (sameTree : final'.tree = final.tree) (sameOutput : final'.output = final.output) :
    options.Ends run stage code final' := by
  cases ends with
  | complete leaves reports =>
    exact .complete (leaves.congr sameTree sameOutput) (sameTree ▸ reports)
  | unreported refused => exact .unreported (refused.congr sameTree sameOutput)
  | unwritten nothing =>
    exact .unwritten fun hasWritten => nothing (hasWritten.congr sameTree sameOutput)

/-- Once the inputs make a run, the rest is to write it and to tell of its advisories. -/
theorem perform_runGenerate {options : GenerateOptions} {run : Generation} {yaml : YamlReader}
    {stage : Stage} (make : options.inputs.Make yaml stage run) :
    ∃ result final,
      perform (runGenerate yaml options : ExceptT String (StateM Stage) Unit).run stage =
        (result, final) ∧
      options.Ends run stage (if result.isOk then 0 else 1) final := by
  obtain ⟨result, written, ran, writes⟩ := GenerateOptions.perform_writeGeneration options run stage
  rw [runGenerate, perform_run_bind_ok _ make.perform_loadGeneration]
  cases writes with
  | nothing grows =>
    exact ⟨_, _, perform_run_bind_error _ ran, .unwritten grows.not_hasWritten⟩
  | unreported refused => exact ⟨_, _, perform_run_bind_error _ ran, .unreported refused⟩
  | all leaves reports =>
    obtain ⟨result, final, told, code, sameTree, sameOutput⟩ :=
      perform_tellAdvisories options run written
    refine ⟨result, final, (perform_run_bind_ok _ ran).trans told, ?_⟩
    rw [code]
    exact .complete (leaves.congr sameTree sameOutput) (sameTree ▸ reports)

/-- A program that runs a command ends with one exit code or the other. -/
theorem perform_runProgram {words : List String} {command : Command}
    (parsed : Command.parse words = .ok command) {yaml : YamlReader} {stage final : Stage}
    {result : Except String Unit}
    (ran : perform (command.run yaml : ExceptT String (StateM Stage) Unit).run stage =
      (result, final)) :
    ∃ final', perform (runProgram words yaml) stage = (if result.isOk then 0 else 1, final') ∧
      final'.tree = final.tree ∧ final'.output = final.output := by
  rw [runProgram, parsed]
  dsimp only
  rw [perform_bind _ ran]
  cases result with
  | ok => exact ⟨final, rfl, rfl, rfl⟩
  | error message => exact ⟨_, rfl, rfl, rfl⟩

/-- Whatever the files are and however YAML is read: if an input cannot be loaded or the declarations
cannot be made, the program ends with exit code 1, and files and output are what they were. Otherwise,
once it has written anything or ends with exit code 0, all that it has written is of one run. The
declarations are where they were asked for, unless the report took their place. So is the report,
whatever the advisories make of the exit code, unless it could not be written. -/
theorem runProgram_generate {words : List String} {options : GenerateOptions}
    (parsed : Command.parse words = .ok (.generate options)) (yaml : YamlReader) (stage : Stage) :
    ∃ code final, perform (runProgram words yaml) stage = (code, final) ∧
      (options.inputs.Fail yaml stage →
        code = 1 ∧ final.tree = stage.tree ∧ final.output = stage.output) ∧
      (code = 0 ∨ HasWritten stage final →
        ∃ run, options.inputs.Make yaml stage run ∧ options.Leaves run stage final ∧
          run.report.outputDigest = Digest.sha256 (printDeclarations run.declarations) ∧
          (code = options.exitCode run ∧ options.Reports run final.tree ∨
            code = 1 ∧ options.ReportRefused run stage final)) := by
  rcases options.inputs.fail_or_make yaml stage with ⟨fails, message, failed⟩ | ⟨run, make⟩
  · have ran : perform (Command.run yaml (.generate options) : ExceptT String _ _).run stage =
        (.error message, stage) := perform_run_bind_error _ failed
    obtain ⟨final, ended, sameTree, sameOutput⟩ := perform_runProgram parsed ran
    refine ⟨1, final, ended, fun _ => ⟨rfl, sameTree, sameOutput⟩, fun hasEnded => ?_⟩
    rcases hasEnded with isZero | hasWritten
    · cases isZero
    · have unchanged : stage.Extends FileTree.noTexts stage := .refl _ _
      exact absurd (hasWritten.congr sameTree sameOutput) unchanged.not_hasWritten
  · obtain ⟨result, written, ran, ends⟩ := perform_runGenerate make
    obtain ⟨final, ended, sameTree, sameOutput⟩ := perform_runProgram parsed ran
    have ends := ends.congr sameTree sameOutput
    generalize (if result.isOk then 0 else 1) = code at ended ends
    have ⟨_, _, _, _, success⟩ := make
    have digest := generate_outputDigest success
    refine ⟨code, final, ended, fun fails => absurd fails make.not_fail, fun hasEnded => ?_⟩
    -- The run was made; what is left is what of it could be written.
    cases ends with
    | complete leaves reports => exact ⟨run, make, leaves, digest, .inl ⟨rfl, reports⟩⟩
    | unreported refused =>
      exact ⟨run, make, refused.leaves, digest, .inr ⟨rfl, refused⟩⟩
    | unwritten nothing =>
      rcases hasEnded with isZero | hasWritten
      · cases isZero
      · exact absurd hasWritten nothing

/-- A working directory with a document that has one builtin type. One that is neither native nor a
    number makes an advisory. -/
def dockStage (builtin : String) : Stage :=
  let document := "\x7b\"application\": \"factorio\", \"stage\": \"runtime\", \"api_version\": 3,"
    ++ "\"builtin_types\": [\x7b\"name\": \"" ++ builtin
    ++ "\", \"order\": 0, \"description\": \"\"\x7d]\x7d"
  { tree :=
      { nodes := [(["dock"], .directory), (["dock", "api.json"], .file document)]
        workingDirectory := ["dock"] } }

/-- The words that ask for the declarations in one file and a report in another, and deny
    advisories. -/
def dockWords (report : String) : List String :=
  ["generate", "--schema", "api.json", "--output", "api.d.ts", "--report", report,
    "--deny-advisories"]

def dockOptions (report : String) : GenerateOptions :=
  { inputs := { schema := "api.json" }, output := some "api.d.ts", report := some report
    denyAdvisories := true }

def dockOutcome (builtin report : String) : Nat × Stage :=
  perform (runProgram (dockWords report)) (dockStage builtin)

/-- Two paths can lead to one file. It holds the report in the end, and not the declarations. -/
theorem report_replaces_declarations :
    ∃ options final,
      Command.parse (dockWords "./api.d.ts") = .ok (.generate options) ∧
      options.output ≠ options.report ∧
      perform (runProgram (dockWords "./api.d.ts")) (dockStage "int8") = (0, final) ∧
      HasWritten (dockStage "int8") final ∧
      ∀ run, options.inputs.Make .standard (dockStage "int8") run →
        ¬ options.Delivers run (dockStage "int8") final := by
  have evaluated : (dockOutcome "int8" "./api.d.ts").1 = 0 ∧
      (dockOutcome "int8" "./api.d.ts").2.output ≠ (dockStage "int8").output ∧
      ((dockOutcome "int8" "./api.d.ts").2.tree.read "api.d.ts").toOption ≠
        (perform (loadGeneration .standard { schema := "api.json" } :
          ExceptT String _ _).run (dockStage "int8")).1.toOption.map fun run =>
            printDeclarations run.declarations := by
    decide +kernel
  rcases ran : dockOutcome "int8" "./api.d.ts" with ⟨code, final⟩
  rw [ran] at evaluated
  obtain ⟨ended, prints, replaced⟩ := evaluated
  obtain rfl : code = 0 := ended
  refine ⟨dockOptions "./api.d.ts", final, rfl, by decide, ran, .inl prints, ?_⟩
  intro run make delivers
  have made : perform (loadGeneration .standard { schema := "api.json" } :
      ExceptT String _ _).run (dockStage "int8") = (.ok run, dockStage "int8") :=
    make.perform_loadGeneration
  have holds : final.tree.read "api.d.ts" = .ok (printDeclarations run.declarations) := delivers
  refine replaced ?_
  rw [made, holds]
  rfl

/-- With the document on the stage, where its advisory is denied in the end, and without it. -/
theorem dock_outcomes :
    (∃ (run : Generation) (final : Stage),
      perform (runProgram (dockWords "/out/report.json")) (dockStage "crate") = (1, final) ∧
      final.tree.read "api.d.ts" = .ok (printDeclarations run.declarations) ∧
      final.tree.read "/out/report.json" = .ok (run.report.format .json) ∧
      run.report.outputDigest = Digest.sha256 (printDeclarations run.declarations)) ∧
    ∃ final : Stage, perform (runProgram (dockWords "/out/report.json")) {} = (1, final) ∧
      final.tree = {} ∧ final.output = "" := by
  have parsed : Command.parse (dockWords "/out/report.json") =
      .ok (.generate (dockOptions "/out/report.json")) := rfl
  constructor
  · have evaluated : (dockOutcome "crate" "/out/report.json").1 = 1 ∧
        (dockOutcome "crate" "/out/report.json").2.output ≠ (dockStage "crate").output ∧
        (dockOutcome "crate" "/out/report.json").2.tree.locate "api.d.ts" =
          .ok ["dock", "api.d.ts"] ∧
        (dockOutcome "crate" "/out/report.json").2.tree.locate "/out/report.json" =
          .ok ["out", "report.json"] ∧
        ((dockOutcome "crate" "/out/report.json").2.tree.read "/out/report.json").isOk := by
      decide +kernel
    obtain ⟨code, final, ran, _, written⟩ :=
      runProgram_generate parsed .standard (dockStage "crate")
    rw [dockOutcome, ran] at evaluated
    obtain ⟨ended, prints, leadsOutput, leadsReport, isRead⟩ := evaluated
    obtain rfl : code = 1 := ended
    obtain ⟨run, _, leaves, digest, filed⟩ := written (.inr (.inl prints))
    have elsewhere : ∀ path, (dockOptions "/out/report.json").output = some path →
        final.tree.locate path ≠ .ok ["out", "report.json"] := by
      rintro _ ⟨⟩ leads
      exact absurd (leadsOutput.symm.trans leads) (by decide)
    have apart : (dockOptions "/out/report.json").Apart final.tree := by
      rintro output _ given ⟨⟩ same
      exact elsewhere output given (same.trans leadsReport)
    refine ⟨run, final, ran, leaves.output apart, ?_, digest⟩
    rcases filed with ⟨_, reports⟩ | ⟨_, refused⟩
    · exact reports _ rfl
    · -- Without a report there would be no file at its place.
      cases holds : final.tree.read "/out/report.json" with
      | error e =>
        rw [holds] at isRead
        cases isRead
      | ok text =>
        obtain ⟨place, leads, found⟩ := FileTree.read_eq_ok.1 holds
        obtain rfl := Except.ok.inj (leadsReport.symm.trans leads)
        cases refused.file_old found elsewhere
  · have missing : ¬ (perform (loadSchema "api.json" : ExceptT String (StateM Stage) _).run
        {}).1.isOk := by
      decide +kernel
    have fails : (dockOptions "/out/report.json").inputs.Fail .standard {} := by
      cases loaded : (perform (loadSchema "api.json" : ExceptT String _ _).run {}).1 with
      | error message => exact .schema loaded
      | ok document => exact absurd (congrArg Except.isOk loaded) missing
    obtain ⟨code, final, ran, failed, _⟩ := runProgram_generate parsed .standard {}
    obtain ⟨rfl, sameTree, sameOutput⟩ := failed fails
    exact ⟨final, ran, sameTree, sameOutput⟩

end Typings
