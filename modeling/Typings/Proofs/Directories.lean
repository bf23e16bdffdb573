import Mathlib.Data.List.Sort
import Mathlib.Data.String.Basic
import Typings.Proofs.FileTrees
import Typings.Proofs.StoredEntries

/-! # Directories of overrides

The files of a directory that hold overrides are read in the order of their paths, so that it does
not matter in which order the directory lists them. What becomes of them is what becomes of their
entries, one list behind the other, and the first error that is met is the result: a file that
cannot be read, or an entry that is at fault.

* `FileTree.Reordered`: trees that differ in the order in which directories list what they hold.
* `overrideFiles_eq_of_perm`, `overrideFiles_ascending`: the files in the order of their paths.
* `FirstFileFault`: the first error that is met in a list of files.
* `OverrideStore.extendFiles_eq_ok`, `OverrideStore.extendFiles_eq_error`: the loop over the files.
* `OverrideStore.loadDirectory_concatenates`: what becomes of a directory.
-/

namespace Typings

/-! ## Trees in another order -/

/-- The same stands at each place of both trees, and a directory lists the same names, in any order.
The working directory is the same. -/
structure FileTree.Reordered (tree tree' : FileTree) : Prop where
  workingDirectory : tree.workingDirectory = tree'.workingDirectory
  node? : ∀ place, tree.node? place = tree'.node? place
  names : ∀ place, (tree.names place).Perm (tree'.names place)

namespace FileTree

/-- With different places it does not matter in which order a tree keeps them. -/
theorem lookup_eq_some_iff {entries : List (List String × FileNode)}
    (distinct : (entries.map Prod.fst).Nodup) {place : List String} {node : FileNode} :
    entries.lookup place = some node ↔ (place, node) ∈ entries := by
  induction entries with
  | nil => simp
  | cons entry entries ih =>
    obtain ⟨key, other⟩ := entry
    rw [List.map_cons, List.nodup_cons] at distinct
    obtain ⟨fresh, distinct⟩ := distinct
    by_cases isKey : place = key
    · subst isKey
      have notBehind : (place, node) ∉ entries := fun isMember =>
        fresh (List.mem_map.2 ⟨_, isMember, rfl⟩)
      simp [notBehind, eq_comm]
    · simp [List.lookup_cons, beq_false_of_ne isKey, isKey, ih distinct]

/-- A tree whose places are kept in another order. -/
theorem Reordered.of_perm {tree tree' : FileTree} (distinct : (tree.nodes.map Prod.fst).Nodup)
    (perm : tree.nodes.Perm tree'.nodes)
    (workingDirectory : tree.workingDirectory = tree'.workingDirectory) :
    tree.Reordered tree' where
  workingDirectory := workingDirectory
  node? place := by
    have distinct' := (perm.map Prod.fst).nodup_iff.1 distinct
    have same : tree.nodes.lookup place = tree'.nodes.lookup place := by
      refine Option.ext fun node => ?_
      rw [lookup_eq_some_iff distinct, lookup_eq_some_iff distinct', perm.mem_iff]
    rw [FileTree.node?, FileTree.node?, same]
  names place := perm.filterMap _

namespace Reordered

variable {tree tree' : FileTree} (reordered : tree.Reordered tree')

include reordered

theorem walk (place pieces : List String) : tree.walk place pieces = tree'.walk place pieces := by
  induction pieces generalizing place with
  | nil => rfl
  | cons piece pieces ih => simp only [FileTree.walk, reordered.node?, ih]

theorem locate (path : String) : tree.locate path = tree'.locate path := by
  rw [FileTree.locate, FileTree.locate, FileTree.start, FileTree.start,
    reordered.workingDirectory, reordered.walk]

theorem read (path : String) : tree.read path = tree'.read path := by
  rw [FileTree.read, FileTree.read, reordered.locate]
  simp only [reordered.node?]

/-- Both trees fail to list the directory, with the same error, or they list the same names. -/
theorem list (path : String) :
    (∃ e, tree.list path = .error e ∧ tree'.list path = .error e) ∨
      ∃ names names', tree.list path = .ok names ∧ tree'.list path = .ok names' ∧
        names.Perm names' := by
  rw [FileTree.list, FileTree.list, reordered.locate]
  cases tree'.locate path with
  | error e => exact .inl ⟨e, rfl, rfl⟩
  | ok place =>
    simp only [bind, Except.bind, reordered.node?]
    cases tree'.node? place with
    | none => exact .inl ⟨_, rfl, rfl⟩
    | some node =>
      cases node with
      | file text => exact .inl ⟨_, rfl, rfl⟩
      | directory => exact .inr ⟨_, _, rfl, rfl, reordered.names place⟩

end Reordered

end FileTree

/-! ## The files of a directory -/

theorem Path.exists_join_eq (directory : String) :
    ∃ front, ∀ name, Path.join directory name = front ++ name := by
  by_cases ends : (directory.isEmpty || directory.endsWith "/") = true
  · exact ⟨directory, fun name => if_pos ends⟩
  · exact ⟨directory ++ "/", fun name => if_neg ends⟩

theorem append_lt_append_iff (front : List Char) {cs cs' : List Char} :
    front ++ cs < front ++ cs' ↔ cs < cs' := by
  induction front with
  | nil => rfl
  | cons c front ih => rw [List.cons_append, List.cons_append, List.cons_lt_cons_self, ih]

theorem Path.join_le_join {directory name name' : String} (ordered : name ≤ name') :
    Path.join directory name ≤ Path.join directory name' := by
  obtain ⟨front, join⟩ := Path.exists_join_eq directory
  rw [join, join, ← not_lt, String.lt_iff_toList_lt, String.toList_append, String.toList_append,
    append_lt_append_iff, ← String.lt_iff_toList_lt, not_lt]
  exact ordered

namespace OverrideStore

/-- The files in the directory that hold overrides, in the order of their paths. -/
structure ArrangesFiles (directory : String) (names files : List String) : Prop where
  perm : files.Perm
    ((names.map (Path.join directory)).filter fun file => (DataFormat.ofPath? file).isSome)
  ascending : files.Pairwise (· ≤ ·)

theorem isOrdered_iff {name name' : String} : (!decide (name' < name)) = true ↔ name ≤ name' := by
  rw [Bool.not_eq_true', decide_eq_false_iff_not, not_lt]

/-- Sorting the names sorts the paths, which all start with the directory. -/
theorem overrideFiles_arranges (directory : String) (names : List String) :
    ArrangesFiles directory names (overrideFiles directory names) where
  perm := by
    rw [overrideFiles, List.filter_map]
    exact (List.mergeSort_perm _ _).map _
  ascending := by
    rw [overrideFiles, List.pairwise_map]
    refine (List.pairwise_mergeSort ?_ ?_ _).imp fun ordered =>
      Path.join_le_join (isOrdered_iff.1 ordered)
    · intro a b c ab bc
      exact isOrdered_iff.2 ((isOrdered_iff.1 ab).trans (isOrdered_iff.1 bc))
    · intro a b
      rw [Bool.or_eq_true, isOrdered_iff, isOrdered_iff]
      exact le_total a b

theorem ArrangesFiles.unique {directory : String} {names names' files files' : List String}
    (perm : names.Perm names') (arranges : ArrangesFiles directory names files)
    (arranges' : ArrangesFiles directory names' files') : files = files' := by
  have same := arranges.perm.trans (((perm.map _).filter _).trans arranges'.perm.symm)
  exact same.eq_of_pairwise' arranges.ascending arranges'.ascending

end OverrideStore

/-! ## What files hold -/

/-- The entries that the file on the stage holds, or why they cannot be read. -/
def Stage.entries (stage : Stage) (yaml : YamlReader) (file : String) :
    Except LoadError (List OverrideEntry) :=
  (perform (OverrideEntry.loadFile yaml file).run stage).1

theorem perform_loadEntries (stage : Stage) (yaml : YamlReader) (file : String) :
    perform (OverrideEntry.loadFile yaml file).run stage = (stage.entries yaml file, stage) :=
  (OverrideEntry.loadFile_reads yaml file).perform_eq stage

/-- What the entries depend on: the extension of the path, the text and the reader of its format. -/
theorem Stage.entries_eq (stage : Stage) (yaml : YamlReader) (file : String) :
    stage.entries yaml file =
      match DataFormat.ofPath? file with
      | none => .error (.unsupportedFormat file)
      | some format =>
        match stage.tree.read file with
        | .ok text => format.decode yaml (.list OverrideEntry.decoder) text
        | .error e => .error (format.unreadable e) := by
  rw [entries, OverrideEntry.loadFile]
  cases DataFormat.ofPath? file with
  | none => rfl
  | some format =>
    have read : perform (FileAccess.read file : ExceptT LoadError (StateM Stage) _).run stage =
      (.ok (stage.tree.read file), stage) := rfl
    dsimp only
    rw [DataFormat.loadFile, perform_run_bind_ok _ read]
    cases stage.tree.read file with
    | error e => rfl
    | ok text =>
      dsimp only
      cases format.decode yaml (.list OverrideEntry.decoder) text <;> rfl

namespace OverrideStore

variable {yaml : YamlReader} {stage : Stage} {store store' reached : OverrideStore} {file : String}
  {files : List String} {e : LoadError}

/-- What the loop over the files comes to, with what the files on the stage hold. -/
def extendedBy (yaml : YamlReader) (stage : Stage) (store : OverrideStore) (files : List String) :
    Except LoadError OverrideStore :=
  (perform (store.extendFiles yaml files).run stage).1

/-- The step of the loop: a file is read, and its entries are added one by one. -/
theorem extendedBy_cons (yaml : YamlReader) (stage : Stage) (store : OverrideStore)
    (file : String) (files : List String) :
    extendedBy yaml stage store (file :: files) =
      (stage.entries yaml file).bind fun entries =>
        ((store.pushEntries entries).mapError .override).bind fun store =>
          extendedBy yaml stage store files := by
  have read := perform_loadEntries stage yaml file
  rw [extendedBy, extendFiles]
  cases held : stage.entries yaml file with
  | error e =>
    rw [held] at read
    rw [perform_run_bind_error _ read]
    rfl
  | ok entries =>
    rw [held] at read
    rw [perform_run_bind_ok _ read, extend]
    change _ = ((store.pushEntries entries).mapError LoadError.override).bind _
    cases store.pushEntries entries with
    | error e => rfl
    | ok store => rfl

/-- The loop can be taken up anywhere, from the store that has been made so far. -/
theorem extendedBy_append (yaml : YamlReader) (stage : Stage) (store : OverrideStore)
    (front back : List String) :
    extendedBy yaml stage store (front ++ back) =
      (extendedBy yaml stage store front).bind fun store => extendedBy yaml stage store back := by
  induction front generalizing store with
  | nil => rfl
  | cons file front ih =>
    rw [List.cons_append, extendedBy_cons, extendedBy_cons]
    cases stage.entries yaml file with
    | error e => rfl
    | ok entries =>
      change ((store.pushEntries entries).mapError LoadError.override).bind _ =
        (((store.pushEntries entries).mapError LoadError.override).bind _).bind _
      cases store.pushEntries entries with
      | error e => rfl
      | ok extended => exact ih extended

end OverrideStore

/-- The files on the stage can be read, and they hold the lists of entries. -/
def Stage.Holds (stage : Stage) (yaml : YamlReader) (files : List String)
    (lists : List (List OverrideEntry)) : Prop :=
  List.Forall₂ (fun file entries => stage.entries yaml file = .ok entries) files lists

/-- What is wrong with a file behind others that hold the entries in `front`: it cannot be read, or
one of its entries is at fault. -/
inductive FileFault (yaml : YamlReader) (stage : Stage) (front : List OverrideEntry)
    (file : String) : LoadError → Prop
  | unreadable {error : LoadError} (failed : stage.entries yaml file = .error error) :
    FileFault yaml stage front file error
  | refused {entries : List OverrideEntry} {error : OverrideError}
      (holds : stage.entries yaml file = .ok entries)
      (first : FirstEntryFault (front ++ entries) error) :
    FileFault yaml stage front file (.override error)

/-- The error is on the first file that cannot be read or has an entry at fault. -/
def FirstFileFault (yaml : YamlReader) (stage : Stage) (files : List String) (error : LoadError) :
    Prop :=
  ∃ front file back lists, files = front ++ file :: back ∧ stage.Holds yaml front lists ∧
    AreEntries lists.flatten ∧ FileFault yaml stage lists.flatten file error

namespace OverrideStore

variable {yaml : YamlReader} {stage : Stage} {store made : OverrideStore}
  {files front : List String} {file : String} {lists : List (List OverrideEntry)} {error : LoadError}

/-- The entries of files that can be read are added as one list. -/
theorem extendedBy_of_holds (holds : stage.Holds yaml files lists) (store : OverrideStore) :
    extendedBy yaml stage store files = (store.pushEntries lists.flatten).mapError .override := by
  induction holds generalizing store with
  | nil => rfl
  | @cons file entries files lists isHeld _ ih =>
    rw [extendedBy_cons, isHeld, List.flatten_cons, pushEntries_append]
    change ((store.pushEntries entries).mapError LoadError.override).bind _ = _
    cases store.pushEntries entries with
    | error e => rfl
    | ok extended => exact ih extended

theorem extendedBy_of_made (holds : stage.Holds yaml files lists)
    (isMade : ofEntries lists.flatten = .ok made) : extendedBy yaml stage empty files = .ok made := by
  rw [ofEntries] at isMade
  rw [extendedBy_of_holds holds, isMade]
  rfl

/-- The loop stops at the first file at fault. The faults behind it are not met. -/
theorem extendedBy_of_firstFault (first : FirstFileFault yaml stage files error) :
    extendedBy yaml stage empty files = .error error := by
  obtain ⟨front, file, back, lists, rfl, holds, areEntries, fault⟩ := first
  obtain ⟨made, isMade⟩ := exists_ofEntries areEntries
  -- the files in front of the fault make a store, from which the loop goes on
  rw [extendedBy_append, extendedBy_of_made holds isMade]
  change extendedBy yaml stage made (file :: back) = _
  rw [extendedBy_cons]
  cases fault with
  | unreadable failed =>
    rw [failed]
    rfl
  | @refused entries error isHeld first =>
    -- the fault among all entries so far is met in those of the file, as the others make a store
    have failed := ofEntries_eq_error.2 first
    rw [ofEntries] at isMade failed
    rw [pushEntries_append, isMade] at failed
    change made.pushEntries entries = .error error at failed
    rw [isHeld]
    change ((made.pushEntries entries).mapError LoadError.override).bind _ = _
    rw [failed]
    rfl

/-- The files hold entries that make a store, or there is a first one that is at fault. -/
theorem holds_or_firstFault (yaml : YamlReader) (stage : Stage) (files : List String) :
    (∃ lists, stage.Holds yaml files lists ∧ AreEntries lists.flatten) ∨
      ∃ error, FirstFileFault yaml stage files error := by
  induction files using List.reverseRecOn with
  | nil => exact .inl ⟨[], .nil, by simp, List.nodup_nil⟩
  | append_singleton front file ih =>
    rcases ih with ⟨lists, holds, areEntries⟩ |
      ⟨error, before, other, back, lists, rfl, holds, areEntries, fault⟩
    · cases isHeld : stage.entries yaml file with
      | error e =>
        exact .inr ⟨e, front, file, [], lists, rfl, holds, areEntries, .unreadable isHeld⟩
      | ok entries =>
        rcases areEntries_or_firstFault (lists.flatten ++ entries) with areAll | ⟨error, first⟩
        · refine .inl ⟨lists ++ [entries], List.rel_append holds (.cons isHeld .nil), ?_⟩
          rwa [List.flatten_append, List.flatten_singleton]
        · exact .inr ⟨_, front, file, [], lists, rfl, holds, areEntries, .refused isHeld first⟩
    · refine .inr ⟨error, before, other, back ++ [file], lists, ?_, holds, areEntries, fault⟩
      rw [List.append_assoc, List.cons_append]

/-- File by file comes to the same as all entries in one list. -/
theorem extendedBy_eq_ok :
    extendedBy yaml stage empty files = .ok made ↔
      ∃ lists, stage.Holds yaml files lists ∧ ofEntries lists.flatten = .ok made := by
  constructor
  · intro success
    rcases holds_or_firstFault yaml stage files with ⟨lists, holds, areEntries⟩ | ⟨error, first⟩
    · obtain ⟨made', isMade⟩ := exists_ofEntries areEntries
      rw [extendedBy_of_made holds isMade] at success
      cases success
      exact ⟨lists, holds, isMade⟩
    · rw [extendedBy_of_firstFault first] at success
      cases success
  · rintro ⟨lists, holds, isMade⟩
    exact extendedBy_of_made holds isMade

/-- Any error of the loop is the first one that is met file by file. -/
theorem extendedBy_eq_error :
    extendedBy yaml stage empty files = .error error ↔ FirstFileFault yaml stage files error := by
  refine ⟨fun failed => ?_, extendedBy_of_firstFault⟩
  rcases holds_or_firstFault yaml stage files with ⟨lists, holds, areEntries⟩ | ⟨error', first⟩
  · obtain ⟨made, isMade⟩ := exists_ofEntries areEntries
    rw [extendedBy_of_made holds isMade] at failed
    cases failed
  · rw [extendedBy_of_firstFault first] at failed
    cases failed
    exact first

/-! ## Directories -/

/-- What loading the directory on the stage comes to. -/
def loadedFrom (yaml : YamlReader) (stage : Stage) (directory : String) :
    Except LoadError OverrideStore :=
  (perform (loadDirectory directory yaml).run stage).1

theorem loadedFrom_of_unlisted {directory : String} {e : FileError}
    (failed : stage.tree.list directory = .error e) :
    loadedFrom yaml stage directory = .error (.file e) := by
  have listed : perform (FileAccess.list directory : ExceptT LoadError (StateM Stage) _).run stage =
    (.ok (stage.tree.list directory), stage) := rfl
  rw [failed] at listed
  rw [loadedFrom, loadDirectory, perform_run_bind_ok _ listed]
  rfl

/-- The loop runs over the sorted files; then the store is told where it comes from. -/
theorem loadedFrom_of_listed {directory : String} {names : List String}
    (isListed : stage.tree.list directory = .ok names) :
    loadedFrom yaml stage directory =
      (extendedBy yaml stage empty (overrideFiles directory names)).map
        (·.withSource (.directory directory)) := by
  have listed : perform (FileAccess.list directory : ExceptT LoadError (StateM Stage) _).run stage =
    (.ok (stage.tree.list directory), stage) := rfl
  have ran : perform (empty.extendFiles yaml (overrideFiles directory names)).run stage =
      (extendedBy yaml stage empty (overrideFiles directory names), stage) :=
    (extendFiles_reads (m := StateM Stage) _ _ _).perform_eq stage
  rw [isListed] at listed
  rw [loadedFrom, loadDirectory, perform_run_bind_ok _ listed]
  dsimp only
  cases extended : extendedBy yaml stage empty (overrideFiles directory names) with
  | error e =>
    rw [extended] at ran
    rw [perform_run_bind_error _ ran]
    rfl
  | ok store =>
    rw [extended] at ran
    rw [perform_run_bind_ok _ ran]
    rfl

theorem loadedFrom_eq_ok {directory : String} {names : List String}
    (isListed : stage.tree.list directory = .ok names) :
    loadedFrom yaml stage directory = .ok store ↔
      ∃ made, extendedBy yaml stage empty (overrideFiles directory names) = .ok made ∧
        made.withSource (.directory directory) = store := by
  rw [loadedFrom_of_listed isListed]
  cases extendedBy yaml stage empty (overrideFiles directory names) <;> simp [Except.map]

theorem loadedFrom_eq_error {directory : String} {names : List String}
    (isListed : stage.tree.list directory = .ok names) :
    loadedFrom yaml stage directory = .error error ↔
      extendedBy yaml stage empty (overrideFiles directory names) = .error error := by
  rw [loadedFrom_of_listed isListed]
  cases extendedBy yaml stage empty (overrideFiles directory names) <;> simp [Except.map]

theorem extendedBy_congr {stage stage' : Stage}
    (same : ∀ file, stage.entries yaml file = stage'.entries yaml file) (store : OverrideStore)
    (files : List String) :
    extendedBy yaml stage store files = extendedBy yaml stage' store files := by
  induction files generalizing store with
  | nil => rfl
  | cons file files ih => simp only [extendedBy_cons, same, ih]

/-- The order of a listing is forgotten when the files are sorted. -/
theorem loadedFrom_congr (yaml : YamlReader) {stage stage' : Stage}
    (reordered : stage.tree.Reordered stage'.tree) (directory : String) :
    loadedFrom yaml stage directory = loadedFrom yaml stage' directory := by
  have same (file : String) : stage.entries yaml file = stage'.entries yaml file := by
    rw [Stage.entries_eq, Stage.entries_eq, reordered.read]
  rcases reordered.list directory with ⟨e, failed, failed'⟩ | ⟨names, names', listed, listed', perm⟩
  · rw [loadedFrom_of_unlisted failed, loadedFrom_of_unlisted failed']
  -- the listings hold the same names, and these can be put in order in one way only
  · have sameFiles := (overrideFiles_arranges directory names).unique perm
      (overrideFiles_arranges directory names')
    rw [loadedFrom_of_listed listed, loadedFrom_of_listed listed', sameFiles,
      extendedBy_congr same]

/-- The first store says that it comes from the source. Otherwise it is the second one: it has the
same overrides in the same order, and finds the same ones. -/
structure CameFrom (store : OverrideStore) (source : OverrideSource) (made : OverrideStore) :
    Prop where
  source : store.source = source
  overrides : store.overrides = made.overrides
  get? : ∀ name, store.get? name = made.get? name
  contains : ∀ name, store.contains name = made.contains name
  size : store.size = made.size

theorem withSource_eq_iff {source : OverrideSource} :
    made.withSource source = store ↔ store.CameFrom source made := by
  constructor
  · rintro rfl
    exact ⟨rfl, rfl, fun _ => rfl, fun _ => rfl, rfl⟩
  · intro came
    exact eq_of_overrides came.overrides.symm came.source.symm

/-- However YAML is read, loading a directory comes to the same in whatever order it lists what it
holds. Its files with overrides are taken in the order of their paths. If all of them can be read
and their entries, one list behind the other, make a store, this is the store; if not, the first
error that is met file by file is the result. -/
theorem loadDirectory_concatenates {stage stage' : Stage}
    (reordered : stage.tree.Reordered stage'.tree) (yaml : YamlReader) (directory : String) :
    loadedFrom yaml stage' directory = loadedFrom yaml stage directory ∧
      (∀ e, stage.tree.list directory = .error e →
        loadedFrom yaml stage directory = .error (.file e)) ∧
      ∀ names, stage.tree.list directory = .ok names →
        ∃ files, ArrangesFiles directory names files ∧
          (∀ store, loadedFrom yaml stage directory = .ok store ↔
            ∃ lists made, stage.Holds yaml files lists ∧ ofEntries lists.flatten = .ok made ∧
              store.CameFrom (.directory directory) made) ∧
          ∀ error, loadedFrom yaml stage directory = .error error ↔
            FirstFileFault yaml stage files error := by
  refine ⟨(loadedFrom_congr yaml reordered directory).symm, fun e => loadedFrom_of_unlisted,
    fun names listed => ⟨_, overrideFiles_arranges directory names, fun store => ?_,
      fun error => ?_⟩⟩
  · rw [loadedFrom_eq_ok listed]
    simp only [extendedBy_eq_ok, withSource_eq_iff]
    constructor
    · rintro ⟨made, ⟨lists, holds, isMade⟩, came⟩
      exact ⟨lists, made, holds, isMade, came⟩
    · rintro ⟨lists, made, holds, isMade, came⟩
      exact ⟨made, ⟨lists, holds, isMade⟩, came⟩
  · rw [loadedFrom_eq_error listed, extendedBy_eq_error]

/-- A directory with an interface in one file and an alias in another. -/
def shelfStage : Stage :=
  let shelf := "[\x7b\"declaration\": \x7b\"kind\": \"interface\", \"name\": \"Shelf\","
    ++ "\"members\": []\x7d\x7d]"
  let book := "[\x7b\"declaration\": \x7b\"kind\": \"type_alias\", \"name\": \"Book\","
    ++ "\"ty\": \x7b\"keyword\": \"string\"\x7d\x7d\x7d]"
  { tree :=
      { nodes :=
          [(["overrides"], .directory), (["overrides", "shelf.json"], .file shelf),
            (["overrides", "notes.txt"], .file "Books are texts."),
            (["overrides", "book.json"], .file book)] } }

/-- The same directory, listed the other way round. -/
def turnedShelfStage : Stage :=
  { tree := { nodes := shelfStage.tree.nodes.reverse } }

theorem turnedShelf_loaded :
    shelfStage.tree.Reordered turnedShelfStage.tree ∧
      ∃ store, loadedFrom .standard shelfStage "overrides" = .ok store ∧
        loadedFrom .standard turnedShelfStage "overrides" = .ok store := by
  have reordered : shelfStage.tree.Reordered turnedShelfStage.tree :=
    .of_perm (by decide) (List.reverse_perm _).symm rfl
  have listed : shelfStage.tree.list "overrides" = .ok ["shelf.json", "notes.txt", "book.json"] :=
    by decide +kernel
  have arranged : ArrangesFiles "overrides" ["shelf.json", "notes.txt", "book.json"]
      ["overrides/book.json", "overrides/shelf.json"] :=
    ⟨by decide +kernel, by decide +kernel⟩
  have success : (extendedBy .standard shelfStage empty
      ["overrides/book.json", "overrides/shelf.json"]).isOk := by
    decide +kernel
  obtain ⟨sameOutcome, _, outcome⟩ := loadDirectory_concatenates reordered .standard "overrides"
  obtain ⟨files, arranges, made, _⟩ := outcome _ listed
  obtain rfl := arranges.unique (.refl _) arranged
  cases extended : extendedBy .standard shelfStage empty
      ["overrides/book.json", "overrides/shelf.json"] with
  | error e =>
    rw [extended] at success
    cases success
  | ok all =>
    obtain ⟨lists, holds, isMade⟩ := extendedBy_eq_ok.1 extended
    have isLoaded := (made _).2 ⟨lists, all, holds, isMade, withSource_eq_iff.1 rfl⟩
    exact ⟨reordered, _, isLoaded, sameOutcome.trans isLoaded⟩

end OverrideStore

end Typings
