import Typings.Json.Decode

/-! # Advisories

What a run notes without failing: gaps in the document that were filled by a guess.

* `Advisory`: the notes, each with its code and its text.
* `Advisory.summary`: how many there are of each code.
* `Advisory.toJson`, `Advisory.decoder`: their JSON form, tagged by the code.
-/

namespace Typings

open Json (Decoder Record)

inductive Advisory where
  | unresolvedLink (context reference : String)
  | missingConceptDefinition (name : String)
  | missingConstantDefinition (path : String)
  | missingBuiltinDefinition (name : String)
  | nonIndexableKey (context key : String)
  | missingIndexShape (className : String)
  deriving DecidableEq, Repr

namespace Advisory

def code : Advisory → String
  | .unresolvedLink _ _ => "unresolved_link"
  | .missingConceptDefinition _ => "missing_concept_definition"
  | .missingConstantDefinition _ => "missing_constant_definition"
  | .missingBuiltinDefinition _ => "missing_builtin_definition"
  | .nonIndexableKey _ _ => "non_indexable_key"
  | .missingIndexShape _ => "missing_index_shape"

def text : Advisory → String
  | .unresolvedLink context reference =>
    context ++ ": unresolved documentation link `" ++ reference ++ "`"
  | .missingConceptDefinition name =>
    name ++ ": concept has no manual definition, emitted as `any`"
  | .missingConstantDefinition path =>
    path ++ ": constant has no values or children, emitted as `any`"
  | .missingBuiltinDefinition name => name ++ ": builtin has no definition, emitted as `any`"
  | .nonIndexableKey context key =>
    context ++ ": dictionary key `" ++ key ++ "` is not indexable, using LuaTable"
  | .missingIndexShape className => className ++ ": array-like class has no index shape"

def codes : List String :=
  ["missing_builtin_definition", "missing_concept_definition", "missing_constant_definition",
    "missing_index_shape", "non_indexable_key", "unresolved_link"]

/-- The number of notes for each code that has some, in the order of the codes. -/
def summary (advisories : List Advisory) : List (String × Nat) :=
  (codes.map fun code => (code, advisories.countP (·.code == code))).filter (·.2 != 0)

/-- The content of the note as the entries of an object. -/
def entries : Advisory → List Json.Entry
  | .unresolvedLink context reference =>
    [.field "context" (.string context), .field "reference" (.string reference)]
  | .missingConceptDefinition name => [.field "name" (.string name)]
  | .missingConstantDefinition path => [.field "path" (.string path)]
  | .missingBuiltinDefinition name => [.field "name" (.string name)]
  | .nonIndexableKey context key =>
    [.field "context" (.string context), .field "key" (.string key)]
  | .missingIndexShape className => [.field "class" (.string className)]

def toJson (advisory : Advisory) : Json :=
  .object (.field "code" (.string advisory.code) :: advisory.entries)

def decoder : Decoder Advisory :=
  .tagged "Advisory" "code"
    [("unresolved_link", Record.decoder
        (Advisory.unresolvedLink <$> .required "context" .string <*> .required "reference" .string)
        "struct variant Advisory::UnresolvedLink"),
      ("missing_concept_definition", Record.decoder
        (Advisory.missingConceptDefinition <$> .required "name" .string)
        "struct variant Advisory::MissingConceptDefinition"),
      ("missing_constant_definition", Record.decoder
        (Advisory.missingConstantDefinition <$> .required "path" .string)
        "struct variant Advisory::MissingConstantDefinition"),
      ("missing_builtin_definition", Record.decoder
        (Advisory.missingBuiltinDefinition <$> .required "name" .string)
        "struct variant Advisory::MissingBuiltinDefinition"),
      ("non_indexable_key", Record.decoder
        (Advisory.nonIndexableKey <$> .required "context" .string <*> .required "key" .string)
        "struct variant Advisory::NonIndexableKey"),
      ("missing_index_shape", Record.decoder
        (Advisory.missingIndexShape <$> .required "class" .string)
        "struct variant Advisory::MissingIndexShape")]

end Advisory

end Typings
