import Typings.Config
import Typings.Files.Access
import Typings.Json.Reader
import Typings.Override.Store
import Typings.Schema.Json
import Typings.Schema.Validation
import Typings.Yaml.Reader

/-! # Loading

Documents, overrides and settings from texts. Which YAML texts can be read, and what they hold, is up
to the reader of YAML that is used; the program has one of its own.

* `LoadError`: why loading fails.
* `YamlReader`: a reader of YAML, with `YamlReader.standard` for the one of the program.
* `DataFormat`: the formats of files, with `DataFormat.decode` for their texts.
* `Schema.Document.read`, `Schema.Document.load`: a document, and a document that is usable.
* `OverrideStore.read`: a store of overrides.
* `Config.read`: settings.
-/

namespace Typings

inductive LoadError where
  | file (error : FileError)
  /-- The text or the data of a JSON document is wrong. -/
  | json (error : Json.Error)
  /-- What should hold a JSON document cannot be read. -/
  | jsonFile (error : FileError)
  /-- A YAML document is wrong, or cannot be read. -/
  | yaml
  | invalidSchema (error : Schema.ValidationError)
  | override (error : OverrideError)
  | unsupportedFormat (path : String)
  | noSources
  deriving DecidableEq, Repr

/-- The message of the error; what is wrong with a YAML document is not part of it. -/
def LoadError.message : LoadError → String
  | .file error => "I/O error: " ++ error.message
  | .json error => "JSON error: " ++ error.message
  | .jsonFile error => "JSON error: " ++ error.message
  | .yaml => "YAML error: "
  | .invalidSchema error => "invalid schema document: " ++ error.message
  | .override error => error.message
  | .unsupportedFormat path => "unsupported override file format: " ++ path
  | .noSources => "no override sources available"

def decodeDocument {α : Type} (d : Json.Document) (value : Json.Decoder α) :
    Except LoadError α :=
  (d.decode value).mapError .json

/-- A reader of YAML. Given how a value is decoded, it tells what a text holds; none if the text
    cannot be read. -/
structure YamlReader where
  decode : {α : Type} → Json.Decoder α → String → Option α

/-- The reader that knows scalars, collections and comments, without anchors, tags and directives. -/
def YamlReader.standard : YamlReader where
  decode value text := do
    let j ← Yaml.read? text
    (Json.Document.decode ⟨j, none⟩ value).toOption

/-- The formats of files that hold data. -/
inductive DataFormat where
  | json
  | yaml
  deriving DecidableEq, Repr

namespace DataFormat

def ofPath? (path : String) : Option DataFormat :=
  match Path.extension? path with
  | some "json" => some .json
  | some "yml" => some .yaml
  | some "yaml" => some .yaml
  | _ => none

/-- The error of a file that cannot be read. A directory can be opened, so that the reader of the
    format fails on it. -/
def unreadable : DataFormat → FileError → LoadError
  | .json, .isADirectory => .jsonFile .isADirectory
  | .yaml, .isADirectory => .yaml
  | _, e => .file e

def decode {α : Type} (yaml : YamlReader) (format : DataFormat) (value : Json.Decoder α)
    (text : String) : Except LoadError α :=
  match format with
  | .json => decodeDocument (Json.Document.ofText text).limited value
  | .yaml => (yaml.decode value text).elim (.error .yaml) .ok

end DataFormat

/-- A document, which may be unusable. -/
def Schema.Document.read (d : Json.Document) : Except LoadError Schema.Document :=
  decodeDocument d Schema.Document.decoder

/-- A document that is usable. -/
def Schema.Document.load (d : Json.Document) : Except LoadError Schema.Document := do
  let document ← Schema.Document.read d
  match document.error? with
  | some e => .error (.invalidSchema e)
  | none => return document

def OverrideEntry.readAll (d : Json.Document) : Except LoadError (List OverrideEntry) :=
  decodeDocument d (.list OverrideEntry.decoder)

def OverrideStore.read (d : Json.Document) : Except LoadError OverrideStore := do
  let entries ← OverrideEntry.readAll d
  (OverrideStore.ofEntries entries).mapError .override

def Config.read (d : Json.Document) : Except LoadError Config :=
  decodeDocument d Config.decoder

end Typings
