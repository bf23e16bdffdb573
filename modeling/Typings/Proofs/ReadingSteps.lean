import Typings.Command.Run

/-! # Steps that only read

The inputs of a command are loaded with operations that read. This is so in every monad with access
to files, on a computer and on a tree.

* `OnlyReads`: the programs that are put together from reading operations.
* `OnlyReads.run`: such a program stays one when its errors become values.
* `loadSchema_reads`, `loadConfig_reads`, `loadOverrides_reads`: loading the inputs of a command.
-/

namespace Typings

/-- The programs that are put together from the operations that read. -/
inductive OnlyReads {m : Type → Type} [Monad m] [FileAccess m] : {α : Type} → m α → Prop
  | pure {α : Type} (x : α) : OnlyReads (Pure.pure x)
  | bind {α β : Type} {program : m α} {next : α → m β} (first : OnlyReads program)
      (second : ∀ x, OnlyReads (next x)) : OnlyReads (program >>= next)
  | isDirectory (path : String) : OnlyReads (FileAccess.isDirectory path)
  | list (path : String) : OnlyReads (FileAccess.list path)
  | read (path : String) : OnlyReads (FileAccess.read path)

/-! ## Programs with errors -/

section
variable {m : Type → Type} [Monad m] [FileAccess m] {ε ε' α β : Type}

namespace OnlyReads

theorem run_pure (x : α) : OnlyReads (Pure.pure x : ExceptT ε m α).run :=
  .pure (Except.ok x)

theorem run_throw (e : ε) : OnlyReads (throw e : ExceptT ε m α).run :=
  .pure (Except.error e)

theorem run_bind {program : ExceptT ε m α} {next : α → ExceptT ε m β}
    (first : OnlyReads program.run) (second : ∀ x, OnlyReads (next x).run) :
    OnlyReads (program >>= next).run := by
  rw [ExceptT.run_bind]
  refine first.bind fun result => ?_
  cases result with
  | error e => exact .pure (Except.error e)
  | ok x => exact second x

theorem run_ofExcept (result : Except ε α) :
    OnlyReads (MonadExcept.ofExcept result : ExceptT ε m α).run := by
  cases result with
  | error e => exact run_throw e
  | ok x => exact run_pure x

variable [LawfulMonad m]

theorem map {program : m α} (f : α → β) (reads : OnlyReads program) :
    OnlyReads (f <$> program) := by
  rw [map_eq_pure_bind]
  exact reads.bind fun x => .pure (f x)

theorem run_lift {program : m α} (reads : OnlyReads program) :
    OnlyReads (ExceptT.lift program : ExceptT ε m α).run :=
  reads.map Except.ok

theorem run_adapt {program : ExceptT ε m α} (f : ε → ε') (reads : OnlyReads program.run) :
    OnlyReads (program.adapt f).run :=
  reads.map (Except.mapError f)

theorem run_mapM {γ : Type} {f : γ → ExceptT ε m β} (reads : ∀ x, OnlyReads (f x).run)
    (xs : List γ) : OnlyReads (xs.mapM f).run := by
  induction xs with
  | nil => exact run_pure []
  | cons x xs ih =>
    rw [List.mapM_cons]
    exact (reads x).run_bind fun _ => ih.run_bind fun _ => run_pure _

theorem run {program : ExceptT ε m α} (reads : OnlyReads program) : OnlyReads program.run := by
  induction reads with
  | pure x => exact run_pure x
  | bind _ _ first second => exact first.run_bind second
  | isDirectory path => exact run_lift (.isDirectory path)
  | list path => exact run_lift (.list path)
  | read path => exact run_lift (.read path)

end OnlyReads

end

/-! ## Loading -/

section
variable {m : Type → Type} [Monad m] [FileAccess m]

theorem sourceAt_reads (path : String) : OnlyReads (sourceAt path : m OverrideSource) :=
  (OnlyReads.isDirectory path).bind fun _ => .pure _

variable [LawfulMonad m]

theorem DataFormat.loadFile_reads {α : Type} (format : DataFormat)
    (read : String → Except LoadError α) (path : String) :
    OnlyReads (format.loadFile read path : ExceptT LoadError m α).run := by
  refine (OnlyReads.read path).run.run_bind fun result => ?_
  cases result with
  | ok text => exact .run_ofExcept _
  | error e => exact .run_throw _

variable (yaml : YamlReader)

theorem OverrideEntry.loadFile_reads (path : String) :
    OnlyReads (loadFile yaml path : ExceptT LoadError m (List OverrideEntry)).run := by
  rw [loadFile]
  cases DataFormat.ofPath? path with
  | some format => exact format.loadFile_reads _ path
  | none => exact .run_throw _

namespace OverrideStore

theorem loadFile_reads (path : String) :
    OnlyReads (loadFile path yaml : ExceptT LoadError m OverrideStore).run :=
  (OverrideEntry.loadFile_reads yaml path).run_bind fun _ =>
    (OnlyReads.run_ofExcept _).run_bind fun _ => .run_pure _

theorem extendFiles_reads (store : OverrideStore) (paths : List String) :
    OnlyReads (store.extendFiles yaml paths : ExceptT LoadError m OverrideStore).run := by
  induction paths generalizing store with
  | nil => exact .run_pure store
  | cons path paths ih =>
    exact (OverrideEntry.loadFile_reads yaml path).run_bind fun _ =>
      (OnlyReads.run_ofExcept _).run_bind fun store => ih store

theorem loadDirectory_reads (path : String) :
    OnlyReads (loadDirectory path yaml : ExceptT LoadError m OverrideStore).run := by
  refine (OnlyReads.list path).run.run_bind fun result => ?_
  cases result with
  | error e => exact .run_throw _
  | ok names => exact (extendFiles_reads yaml _ _).run_bind fun _ => .run_pure _

theorem loadSource?_reads (source : OverrideSource) :
    OnlyReads (loadSource? yaml source : m (Option OverrideStore)) := by
  cases source with
  | file path => exact (loadFile_reads yaml path).bind fun _ => .pure _
  | directory path => exact (loadDirectory_reads yaml path).bind fun _ => .pure _
  | inline => exact .pure none
  | multiple sources => exact .pure none

theorem firstLoaded?_reads (sources : List OverrideSource) :
    OnlyReads (firstLoaded? yaml sources : m (Option OverrideStore)) := by
  induction sources with
  | nil => exact .pure none
  | cons source sources ih =>
    refine (loadSource?_reads yaml source).bind fun loaded => ?_
    cases loaded with
    | some store => exact .pure _
    | none => exact ih

theorem loadFirst_reads (sources : List OverrideSource) :
    OnlyReads (loadFirst sources yaml : ExceptT LoadError m OverrideStore).run := by
  refine (firstLoaded?_reads yaml sources).run.run_bind fun loaded => ?_
  cases loaded with
  | some store => exact .run_pure _
  | none => exact .run_throw _

end OverrideStore

theorem loadNamed_reads {α : Type} (what path : String) {load : ExceptT LoadError m α}
    (reads : OnlyReads load.run) : OnlyReads (loadNamed what path load).run :=
  reads.run_adapt _

theorem loadSchema_reads (path : String) :
    OnlyReads (loadSchema path : ExceptT String m Schema.Document).run :=
  loadNamed_reads _ path (DataFormat.loadFile_reads _ _ path)

theorem loadConfig_reads (path : Option String) :
    OnlyReads (loadConfig yaml path : ExceptT String m Config).run := by
  cases path with
  | some path => exact loadNamed_reads _ path (DataFormat.loadFile_reads _ _ path)
  | none => exact .run_pure _

theorem loadOverrides_reads (paths : List String) :
    OnlyReads (loadOverrides yaml paths : ExceptT String m OverrideStore).run := by
  match paths with
  | [] => exact .run_pure _
  | [path] =>
    refine (OnlyReads.isDirectory path).run.run_bind fun isDirectory => loadNamed_reads _ path ?_
    cases isDirectory with
    | true => exact OverrideStore.loadDirectory_reads yaml path
    | false => exact OverrideStore.loadFile_reads yaml path
  | first :: second :: others =>
    exact (OnlyReads.run_mapM (fun path => .run_lift (sourceAt_reads path)) _).run_bind
      fun sources => (OverrideStore.loadFirst_reads yaml sources).run_adapt _

end

end Typings
