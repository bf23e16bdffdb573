import Typings.Files.Tree
import Typings.Proofs.ReadingSteps

/-! # What writing does to a tree of files

Writing a file and creating a directory change what stands at one place, which is never the place
of a directory. So a path leads where it led before.

* `NodeChange`, `FileTree.Extends`: a tree with further directories, and with some texts in files.
* `FileTree.Extends.locate`: paths keep leading to their places.
* `FileTree.write_extends`, `FileTree.createDirectory_extends`: the two operations.
* `perform`: what a program comes to on a stage.
* `Stage.Extends`: what a program does that writes files and leaves the streams alone.
* `createDirectories_only`, `writeText_wrote`: writing a file with the directories around it.
-/

namespace Typings

/-- How what stands at a place may change: into a directory where nothing stood, and into a file
    with one of the texts. -/
inductive NodeChange (texts : String → Prop) : Option FileNode → Option FileNode → Prop
  | same (node : Option FileNode) : NodeChange texts node node
  | made : NodeChange texts none (some .directory)
  | written {node : Option FileNode} {text : String} (notDirectory : node ≠ some .directory)
      (isText : texts text) : NodeChange texts node (some (.file text))

namespace NodeChange

variable {texts texts' : String → Prop} {node node' node'' : Option FileNode}

theorem mono (change : NodeChange texts node node') (weaker : ∀ text, texts text → texts' text) :
    NodeChange texts' node node' := by
  cases change with
  | same => exact .same _
  | made => exact .made
  | written notDirectory isText => exact .written notDirectory (weaker _ isText)

/-- A directory stays one, so that two changes make a change. -/
theorem trans (first : NodeChange texts node node') (second : NodeChange texts node' node'') :
    NodeChange texts node node'' := by
  cases second with
  | same => exact first
  | made =>
    cases first
    exact .made
  | written notDirectory isText =>
    refine .written ?_ isText
    rintro rfl
    -- A directory stays what it is, so that the second step would have met it.
    cases first with
    | same => exact notDirectory rfl
    | written wasDirectory _ => exact wasDirectory rfl

theorem directory (change : NodeChange texts (some .directory) node') :
    node' = some .directory := by
  cases change with
  | same => rfl
  | written notDirectory _ => exact absurd rfl notDirectory

theorem file {text : String} (change : NodeChange texts node (some (.file text))) :
    node = some (.file text) ∨ texts text := by
  cases change with
  | same => exact .inl rfl
  | written _ isText => exact .inr isText

theorem of_file {text : String} (change : NodeChange texts (some (.file text)) node')
    (untouched : ∀ text', ¬ texts text') : node' = some (.file text) := by
  cases change with
  | same => rfl
  | written _ isText => exact absurd isText (untouched _)

end NodeChange

namespace FileTree

variable {tree tree' tree'' : FileTree} {texts texts' : List String → String → Prop}
  {place : List String} {path text : String}

/-! ## Nodes -/

theorem lookup_putNode (place place' : List String) (node : FileNode)
    (entries : List (List String × FileNode)) :
    (putNode place node entries).lookup place' =
      if place' = place then some node else entries.lookup place' := by
  induction entries with
  | nil =>
    by_cases isPlace : place' = place
    · simp [putNode, isPlace]
    · simp [putNode, isPlace, List.lookup_cons, beq_false_of_ne isPlace]
  | cons entry entries ih =>
    obtain ⟨key, old⟩ := entry
    by_cases isKey : key = place
    · subst isKey
      by_cases isPlace : place' = key
      · simp [putNode, isPlace]
      · simp [putNode, isPlace, List.lookup_cons, beq_false_of_ne isPlace]
    · by_cases found : place' = key
      · subst found
        simp [putNode, isKey]
      · simp [putNode, isKey, List.lookup_cons, beq_false_of_ne found, ih]

theorem node?_put (notTop : place ≠ []) (place' : List String) (node : FileNode) :
    (tree.put place node).node? place' =
      if place' = place then some node else tree.node? place' := by
  by_cases isTop : place' = []
  · subst isTop
    simp [node?, notTop.symm]
  · simp [node?, put, lookup_putNode, isTop]

theorem ne_nil_of_node? (notDirectory : tree.node? place ≠ some .directory) : place ≠ [] := by
  rintro rfl
  exact notDirectory rfl

/-- What can be read is the text of a file at the place that the path leads to. -/
theorem read_eq_ok :
    tree.read path = .ok text ↔
      ∃ place, tree.locate path = .ok place ∧ tree.node? place = some (.file text) := by
  rw [read]
  cases tree.locate path with
  | error e => simp [bind, Except.bind]
  | ok place =>
    cases found : tree.node? place with
    | none => simp [bind, Except.bind, found]
    | some node => cases node <;> simp [bind, Except.bind, pure, Except.pure, found]

/-! ## Extended trees -/

/-- The second tree is the first one with further directories, and with the given texts in files. -/
structure Extends (texts : List String → String → Prop) (tree tree' : FileTree) : Prop where
  nodes : ∀ place, NodeChange (texts place) (tree.node? place) (tree'.node? place)
  workingDirectory : tree'.workingDirectory = tree.workingDirectory

def noTexts (_ : List String) (_ : String) : Prop :=
  False

namespace Extends

theorem refl (texts : List String → String → Prop) (tree : FileTree) : tree.Extends texts tree :=
  ⟨fun _ => .same _, rfl⟩

theorem trans (first : tree.Extends texts tree') (second : tree'.Extends texts tree'') :
    tree.Extends texts tree'' :=
  ⟨fun place => (first.nodes place).trans (second.nodes place),
    second.workingDirectory.trans first.workingDirectory⟩

theorem mono (grows : tree.Extends texts tree')
    (weaker : ∀ place text, texts place text → texts' place text) : tree.Extends texts' tree' :=
  ⟨fun place => (grows.nodes place).mono (weaker place), grows.workingDirectory⟩

/-- A step along a path needs a directory, and directories stay. -/
theorem walk (grows : tree.Extends texts tree') {pieces place' : List String}
    (leads : tree.walk place pieces = .ok place') : tree'.walk place pieces = .ok place' := by
  induction pieces generalizing place with
  | nil => exact leads
  | cons piece pieces ih =>
    rw [FileTree.walk] at leads ⊢
    have change := grows.nodes place
    cases found : tree.node? place with
    | none => simp [found] at leads
    | some node =>
      cases node with
      | file text => simp [found] at leads
      | directory =>
        rw [found] at change
        simp only [found] at leads
        simp only [change.directory]
        -- Wherever the piece leads, the rest of the path starts at the same place in both trees.
        by_cases stays : piece = "" ∨ piece = "."
        · simp only [stays, if_true] at leads ⊢
          exact ih leads
        · by_cases isParent : piece = ".."
          · simp only [isParent, if_true] at leads ⊢
            exact ih leads
          · simp only [stays, isParent, if_false] at leads ⊢
            exact ih leads

theorem start (grows : tree.Extends texts tree') (path : String) :
    tree'.start path = tree.start path := by
  rw [FileTree.start, FileTree.start, grows.workingDirectory]

/-- A path leads where it led before. -/
theorem locate (grows : tree.Extends texts tree') (leads : tree.locate path = .ok place) :
    tree'.locate path = .ok place := by
  rw [FileTree.locate] at leads ⊢
  split at leads
  · cases leads
  · rw [if_neg ‹_›, grows.start]
    exact grows.walk leads

/-- A text that is in a file stays there when no text is given to its place. -/
theorem read (grows : tree.Extends texts tree') (holds : tree.read path = .ok text)
    (untouched : ∀ place, tree'.locate path = .ok place → ∀ text', ¬ texts place text') :
    tree'.read path = .ok text := by
  obtain ⟨place, leads, found⟩ := read_eq_ok.1 holds
  have leads' := grows.locate leads
  refine read_eq_ok.2 ⟨place, leads', ?_⟩
  have change := grows.nodes place
  rw [found] at change
  exact change.of_file (untouched place leads')

end Extends

/-- A change at one place is one of the tree. -/
theorem put_extends {node : FileNode}
    (allowed : NodeChange (texts place) (tree.node? place) (some node)) (notTop : place ≠ []) :
    tree.Extends texts (tree.put place node) := by
  refine ⟨fun place' => ?_, rfl⟩
  rw [node?_put notTop]
  by_cases isPlace : place' = place
  · subst isPlace
    simpa using allowed
  · rw [if_neg isPlace]
    exact .same _

/-! ## The operations -/

/-- Without a slash at its end, a path stays as it is when slashes are taken from its end. -/
theorem locateNew_eq_locate (noSlash : path.endsWith "/" = false) :
    tree.locateNew path = tree.locate path := by
  rw [String.endsWith_eq_endsWith_toSlice, String.Slice.endsWith_string_eq_false_iff] at noSlash
  have unchanged : path.toList.reverse.dropWhile (· == '/') = path.toList.reverse := by
    cases reversed : path.toList.reverse with
    | nil => rfl
    | cons c cs =>
      rw [List.dropWhile_cons_of_neg]
      rintro isSlash
      obtain rfl : c = '/' := by simpa using isSlash
      refine noSlash ⟨cs.reverse, ?_⟩
      simpa using (congrArg List.reverse reversed).symm
  rw [locateNew, unchanged, List.reverse_reverse, String.ofList_toList, locate]

theorem createDirectory_eq_ok (success : tree.createDirectory path = .ok tree') :
    ∃ place, tree.node? place = none ∧ tree' = tree.put place .directory := by
  rw [createDirectory] at success
  cases located : tree.locateNew path with
  | error e => simp [located, bind, Except.bind] at success
  | ok place =>
    cases found : tree.node? place with
    | some node => simp [located, found, bind, Except.bind] at success
    | none =>
      refine ⟨place, found, ?_⟩
      simpa [located, found, bind, Except.bind, pure, Except.pure] using success.symm

/-- A file is only written where no directory is, and nowhere else. -/
theorem write_eq_ok (success : tree.write path text = .ok tree') :
    ∃ place, tree.locate path = .ok place ∧ tree.node? place ≠ some .directory ∧
      tree' = tree.put place (.file text) := by
  rw [write] at success
  cases located : tree.locateNew path with
  | error e => simp [located, bind, Except.bind] at success
  | ok place =>
    simp only [located, bind, Except.bind] at success
    split at success
    · cases success
    · rename_i writable
      simp only [Bool.or_eq_true, beq_iff_eq, not_or, Bool.not_eq_true] at writable
      refine ⟨place, ?_, writable.2, (Except.ok.inj success).symm⟩
      rw [← locateNew_eq_locate writable.1, located]

/-- Only where nothing stood there is a directory now. -/
theorem createDirectory_extends (success : tree.createDirectory path = .ok tree') :
    tree.Extends noTexts tree' := by
  obtain ⟨place, free, rfl⟩ := createDirectory_eq_ok success
  have notDirectory : tree.node? place ≠ some .directory := by simp [free]
  exact put_extends (free ▸ .made) (ne_nil_of_node? notDirectory)

/-- The text is in the file in the end, and the path leads to no other place than before. -/
theorem write_extends (success : tree.write path text = .ok tree') :
    tree'.read path = .ok text ∧
      tree.Extends (fun place text' => tree'.locate path = .ok place ∧ text' = text) tree' := by
  obtain ⟨place, leads, notDirectory, rfl⟩ := write_eq_ok success
  have notTop := ne_nil_of_node? notDirectory
  have grows : tree.Extends (fun _ _ => True) (tree.put place (.file text)) :=
    put_extends (.written notDirectory trivial) notTop
  have leads' := grows.locate leads
  refine ⟨read_eq_ok.2 ⟨place, leads', by simp [node?_put notTop]⟩, ?_⟩
  exact put_extends (.written notDirectory ⟨leads', rfl⟩) notTop

end FileTree

/-! ## Programs on a stage -/

/-- What a program comes to on the stage, and the stage that it leaves. -/
def perform {α : Type} (program : StateM Stage α) (stage : Stage) : α × Stage :=
  (program.run stage).run

section
variable {ε ε' α β : Type} {program : StateM Stage α} {stage stage' : Stage}

theorem perform_bind {x : α} (next : α → StateM Stage β)
    (ran : perform program stage = (x, stage')) :
    perform (program >>= next) stage = perform (next x) stage' := by
  have inTurn : perform (program >>= next) stage =
      perform (next (perform program stage).1) (perform program stage).2 := rfl
  rw [inTurn, ran]

theorem perform_run_bind_ok {program : ExceptT ε (StateM Stage) α} {x : α}
    (next : α → ExceptT ε (StateM Stage) β) (ran : perform program.run stage = (.ok x, stage')) :
    perform (program >>= next).run stage = perform (next x).run stage' := by
  rw [ExceptT.run_bind, perform_bind _ ran]

theorem perform_run_bind_error {program : ExceptT ε (StateM Stage) α} {e : ε}
    (next : α → ExceptT ε (StateM Stage) β) (ran : perform program.run stage = (.error e, stage')) :
    perform (program >>= next).run stage = (.error e, stage') := by
  rw [ExceptT.run_bind, perform_bind _ ran]
  rfl

theorem perform_run_lift {x : α} (ran : perform program stage = (x, stage')) :
    perform (ExceptT.lift program : ExceptT ε (StateM Stage) α).run stage = (.ok x, stage') := by
  rw [ExceptT.run_lift, map_eq_pure_bind, perform_bind _ ran]
  rfl

/-- A program that only reads leaves the stage as it is. -/
theorem OnlyReads.perform_eq (reads : OnlyReads program) (stage : Stage) :
    perform program stage = ((perform program stage).1, stage) := by
  -- The induction is on how the program is put together.
  induction reads with
  | pure x => rfl
  | bind first second ih ihNext =>
    rw [perform_bind _ ih, ihNext]
  | isDirectory path => rfl
  | list path => rfl
  | read path => rfl

end

/-- The second stage has the tree of the first one with further directories and with the given texts
    in files. The streams are the same. -/
structure Stage.Extends (texts : List String → String → Prop) (stage stage' : Stage) : Prop where
  tree : stage.tree.Extends texts stage'.tree
  output : stage'.output = stage.output
  messages : stage'.messages = stage.messages

namespace Stage.Extends

variable {texts texts' : List String → String → Prop} {stage stage' stage'' : Stage}

theorem refl (texts : List String → String → Prop) (stage : Stage) : stage.Extends texts stage :=
  ⟨.refl _ _, rfl, rfl⟩

theorem mono (grows : stage.Extends texts stage')
    (weaker : ∀ place text, texts place text → texts' place text) : stage.Extends texts' stage' :=
  ⟨grows.tree.mono weaker, grows.output, grows.messages⟩

theorem ofNoTexts (grows : stage.Extends FileTree.noTexts stage') : stage.Extends texts stage' :=
  grows.mono fun _ _ => False.elim

theorem trans (first : stage.Extends texts stage') (second : stage'.Extends texts stage'') :
    stage.Extends texts stage'' :=
  ⟨first.tree.trans second.tree, second.output.trans first.output,
    second.messages.trans first.messages⟩

end Stage.Extends

/-! ## Writing -/

section
variable (f : FileTree → Except FileError FileTree) (stage : Stage)

theorem perform_change_ok {tree : FileTree} (success : f stage.tree = .ok tree) :
    perform (Stage.change f) stage = (.ok (), { stage with tree }) := by
  rw [perform, StateT.run, Stage.change, success]
  rfl

theorem perform_change_error {e : FileError} (failure : f stage.tree = .error e) :
    perform (Stage.change f) stage = (.error e, stage) := by
  rw [perform, StateT.run, Stage.change, failure]
  rfl

end

open FileTree (noTexts)

/-- All that the program does is to create directories. -/
def OnlyDirectories {α : Type} (program : StateM Stage α) : Prop :=
  ∀ stage : Stage, stage.Extends noTexts (perform program stage).2

namespace OnlyDirectories

variable {α β : Type} {program : StateM Stage α}

theorem ofReads (reads : OnlyReads program) : OnlyDirectories program := by
  intro stage
  rw [reads.perform_eq]
  exact .refl _ _

theorem bind {next : α → StateM Stage β} (first : OnlyDirectories program)
    (second : ∀ x, OnlyDirectories (next x)) : OnlyDirectories (program >>= next) :=
  fun stage => (first stage).trans (second _ _)

end OnlyDirectories

theorem createDirectory_only (path : String) :
    OnlyDirectories (FileAccess.createDirectory path) := by
  intro stage
  change stage.Extends noTexts (perform (Stage.change (·.createDirectory path)) stage).2
  cases success : stage.tree.createDirectory path with
  | error e =>
    rw [perform_change_error (·.createDirectory path) stage success]
    exact .refl _ _
  | ok tree =>
    rw [perform_change_ok (·.createDirectory path) stage success]
    exact ⟨FileTree.createDirectory_extends success, rfl, rfl⟩

theorem acceptDirectory_only (path : String) (attempt : Except FileError Unit) :
    OnlyDirectories (acceptDirectory path attempt) := by
  refine .ofReads ?_
  cases attempt with
  | ok => exact .pure _
  | error e => exact (OnlyReads.isDirectory path).bind fun _ => .pure _

/-- Whatever fails on the way, nothing but directories has been created. -/
theorem createNested_only (paths : List String) : OnlyDirectories (createNested paths) := by
  induction paths with
  | nil => exact .ofReads (.pure _)
  | cons path outer ih =>
    refine (createDirectory_only path).bind fun attempt => ?_
    by_cases missing : attempt = .error .notFound
    · subst missing
      -- The directory around is missing, too, and the directory is tried a second time.
      refine ih.bind fun result => ?_
      cases result with
      | error e => exact .ofReads (.pure _)
      | ok => exact (createDirectory_only path).bind fun _ => acceptDirectory_only path _
    · split
      · exact absurd rfl missing
      · exact acceptDirectory_only path _

theorem createDirectories_only (path : String) : OnlyDirectories (createDirectories path) :=
  createNested_only _

/-- How the writing of a file ends: with the text in it, or with a failure that can leave further
    directories behind. -/
inductive Wrote {ε : Type} (path text : String) (stage : Stage) : Except ε Unit × Stage → Prop
  | done {stage' : Stage} (holds : stage'.tree.read path = .ok text)
      (grows : stage.Extends (fun place text' => stage'.tree.locate path = .ok place ∧ text' = text)
        stage') : Wrote path text stage (.ok (), stage')
  | failed {stage' : Stage} (e : ε) (grows : stage.Extends noTexts stage') :
      Wrote path text stage (.error e, stage')

/-- A file is written at once or not at all. -/
theorem write_wrote (path text : String) (stage : Stage) :
    Wrote path text stage (perform (FileAccess.write path text) stage) := by
  change Wrote path text stage (perform (Stage.change (·.write path text)) stage)
  cases success : stage.tree.write path text with
  | error e =>
    rw [perform_change_error (·.write path text) stage success]
    exact .failed e (.refl _ _)
  | ok tree =>
    rw [perform_change_ok (·.write path text) stage success]
    obtain ⟨holds, grows⟩ := FileTree.write_extends success
    exact .done holds ⟨grows, rfl, rfl⟩

/-- The directories around the file come first and the text comes last. Nothing else changes. -/
theorem writeText_wrote (path text : String) (stage : Stage) :
    Wrote path text stage (perform (writeText path text) stage) := by
  have directories := createDirectories_only ((Path.parent? path).getD "") stage
  rw [writeText]
  rcases made : perform (createDirectories ((Path.parent? path).getD "")) stage with
    ⟨result, between⟩
  rw [made] at directories
  rw [perform_bind _ made]
  cases result with
  | error e => exact .failed _ directories
  | ok =>
    have wrote := write_wrote path text between
    rcases ran : perform (FileAccess.write path text) between with ⟨result, final⟩
    rw [ran] at wrote
    rw [perform_bind _ ran]
    cases wrote with
    | done holds grows => exact .done holds (directories.ofNoTexts.trans grows)
    -- The directories were created for nothing.
    | failed e grows => exact .failed _ (directories.trans grows)

/-! ## Writing in programs with errors

Directories are created and files are written in the same way in a program that can fail. -/

section
variable {m : Type → Type} [Monad m] [LawfulMonad m] [FileAccess m] {ε : Type}

open ExceptT (lift_bind lift_pure)

theorem acceptDirectory_lift (path : String) (attempt : Except FileError Unit) :
    (acceptDirectory path attempt : ExceptT ε m _) =
      ExceptT.lift (acceptDirectory path attempt) := by
  cases attempt with
  | ok => exact (lift_pure _).symm
  | error e =>
    rw [acceptDirectory, acceptDirectory, lift_bind]
    simp only [lift_pure]
    rfl

/-- That a program can fail does not change how it creates directories. -/
theorem createNested_lift (paths : List String) :
    (createNested paths : ExceptT ε m _) = ExceptT.lift (createNested paths) := by
  induction paths with
  | nil => exact (lift_pure _).symm
  | cons path outer ih =>
    rw [createNested, createNested, lift_bind]
    refine congrArg (_ >>= ·) (funext fun attempt => ?_)
    by_cases missing : attempt = .error .notFound
    · subst missing
      rw [ih, lift_bind]
      refine congrArg (_ >>= ·) (funext fun result => ?_)
      cases result with
      | error e => exact (lift_pure _).symm
      | ok =>
        rw [lift_bind]
        exact congrArg (_ >>= ·) (funext fun _ => acceptDirectory_lift path _)
    · split
      · exact absurd rfl missing
      · rw [acceptDirectory_lift]

theorem writeText_lift (path text : String) :
    (writeText path text : ExceptT ε m _) = ExceptT.lift (writeText path text) := by
  rw [writeText, writeText, lift_bind, createDirectories, createNested_lift]
  refine congrArg (_ >>= ·) (funext fun result => ?_)
  cases result with
  | error e => exact (lift_pure _).symm
  | ok =>
    rw [lift_bind]
    simp only [lift_pure]
    rfl

end

end Typings
