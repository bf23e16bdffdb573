import Typings.Json.Decode

/-! # Configuration

What can be set for a run: where the documentation lives, and which names have a special role.

* `Config`: the settings and their defaults.
* `Config.decoder`, `Config.toJson`: their JSON form; a setting that is left out has its default.
-/

namespace Typings

open Json (Decoder Record strings)

structure Config where
  /-- The address that the pages of the documentation start with. -/
  docBaseUrl : String := "https://lua-api.factorio.com/latest/"
  /-- The name of the namespace that holds the constants. -/
  constantsRoot : String := "defines"
  /-- The name of the interface that carries what every object has. -/
  markerSupertype : String := "LuaObjectBase"
  /-- Classes with this end of their name are described on one page. -/
  sharedPageSuffix : String := "ControlBehavior"
  /-- The page that describes them. -/
  sharedPage : String := "LuaControlBehavior"
  /-- The builtin types that the target language has itself. -/
  nativeBuiltins : List String := ["string", "boolean", "number"]
  /-- The builtin types that are numbers. -/
  numericBuiltins : List String :=
    ["double", "float", "int", "int8", "int16", "int32", "int64", "uint", "uint8", "uint16",
      "uint32", "uint64"]

namespace Config

def isNative (config : Config) (name : String) : Bool :=
  config.nativeBuiltins.contains name

def isNumeric (config : Config) (name : String) : Bool :=
  config.numericBuiltins.contains name

def toJson (config : Config) : Json :=
  .object [.field "doc_base_url" (.string config.docBaseUrl),
    .field "constants_root" (.string config.constantsRoot),
    .field "marker_supertype" (.string config.markerSupertype),
    .field "shared_page_suffix" (.string config.sharedPageSuffix),
    .field "shared_page" (.string config.sharedPage),
    .field "native_builtins" (strings config.nativeBuiltins),
    .field "numeric_builtins" (strings config.numericBuiltins)]

/-- The settings of a configuration. -/
def record : Record Config :=
  let standard : Config := {}
  Config.mk <$> .optional "doc_base_url" standard.docBaseUrl .string
    <*> .optional "constants_root" standard.constantsRoot .string
    <*> .optional "marker_supertype" standard.markerSupertype .string
    <*> .optional "shared_page_suffix" standard.sharedPageSuffix .string
    <*> .optional "shared_page" standard.sharedPage .string
    <*> .optional "native_builtins" standard.nativeBuiltins (.list .string)
    <*> .optional "numeric_builtins" standard.numericBuiltins (.list .string)

def decoder : Decoder Config :=
  record.decoder "struct GeneratorConfig"

end Config

end Typings
