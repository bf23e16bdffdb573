import Typings.Loading
import Typings.Yaml.Printer

/-! # Loading from files

* `Schema.Document.loadFile`, `Config.loadFile`: a usable document, and settings.
* `Config.saveFile`: writes settings.
* `OverrideStore.loadFile`: the overrides of a file.
* `OverrideStore.loadDirectory`: the overrides of all files in a directory, in the order of their
  names, so that it does not matter in which order the directory lists them.
* `OverrideStore.loadFirst`: the overrides of the first source that can be loaded.
-/

namespace Typings

section
variable {m : Type → Type} [Monad m] [FileAccess m]

/-- What a file of the format holds, given how to read its text. -/
def DataFormat.loadFile {α : Type} (format : DataFormat) (read : String → Except LoadError α)
    (path : String) : ExceptT LoadError m α := do
  match ← FileAccess.read path with
  | .ok text => MonadExcept.ofExcept (read text)
  | .error e => throw (format.unreadable e)

def Schema.Document.loadFile (path : String) : ExceptT LoadError m Schema.Document :=
  DataFormat.json.loadFile (fun text => Schema.Document.load (Json.Document.ofText text).limited)
    path

def Config.loadFile (path : String) (yaml : YamlReader := .standard) :
    ExceptT LoadError m Config :=
  DataFormat.yaml.loadFile (DataFormat.yaml.decode yaml Config.decoder) path

def Config.saveFile (config : Config) (path : String) : ExceptT LoadError m Unit := do
  match ← FileAccess.write path (Yaml.print config.toJson) with
  | .ok () => return ()
  | .error e => throw (.file e)

def OverrideEntry.loadFile (yaml : YamlReader) (path : String) :
    ExceptT LoadError m (List OverrideEntry) := do
  match DataFormat.ofPath? path with
  | some format => format.loadFile (format.decode yaml (.list OverrideEntry.decoder)) path
  | none => throw (.unsupportedFormat path)

namespace OverrideStore

def extend (store : OverrideStore) (entries : List OverrideEntry) :
    Except LoadError OverrideStore :=
  (store.pushEntries entries).mapError .override

def loadFile (path : String) (yaml : YamlReader := .standard) :
    ExceptT LoadError m OverrideStore := do
  let entries ← OverrideEntry.loadFile yaml path
  let store ← MonadExcept.ofExcept (empty.extend entries)
  return store.withSource (.file path)

def extendFiles (yaml : YamlReader) (store : OverrideStore) :
    List String → ExceptT LoadError m OverrideStore
  | [] => return store
  | path :: paths => do
    let entries ← OverrideEntry.loadFile yaml path
    let store ← MonadExcept.ofExcept (store.extend entries)
    store.extendFiles yaml paths

/-- The files among the names in a directory that hold overrides, in the order of their names. -/
def overrideFiles (directory : String) (names : List String) : List String :=
  let files := names.filter fun name => (DataFormat.ofPath? (Path.join directory name)).isSome
  (files.mergeSort fun a b => !decide (b < a)).map (Path.join directory)

def loadDirectory (path : String) (yaml : YamlReader := .standard) :
    ExceptT LoadError m OverrideStore := do
  match ← FileAccess.list path with
  | .error e => throw (.file e)
  | .ok names =>
    let store ← empty.extendFiles yaml (overrideFiles path names)
    return store.withSource (.directory path)

/-- The overrides of a source; none if it cannot be loaded. -/
def loadSource? (yaml : YamlReader) (source : OverrideSource) : m (Option OverrideStore) := do
  match source with
  | .file path => return (← (loadFile path yaml).run).toOption
  | .directory path => return (← (loadDirectory path yaml).run).toOption
  | .inline => return none
  | .multiple _ => return none

def firstLoaded? (yaml : YamlReader) : List OverrideSource → m (Option OverrideStore)
  | [] => return none
  | source :: sources => do
    match ← loadSource? yaml source with
    | some store => return some store
    | none => firstLoaded? yaml sources

/-- The overrides of the first source that can be loaded. The store tells all of them. -/
def loadFirst (sources : List OverrideSource) (yaml : YamlReader := .standard) :
    ExceptT LoadError m OverrideStore := do
  match ← firstLoaded? yaml sources with
  | some store => return store.withSource (.multiple sources)
  | none => throw .noSources

end OverrideStore

end

end Typings
