import Typings.Declaration.Json
import Typings.Declaration.Printer
import Typings.Json.Printer
import Typings.Report
import Typings.Yaml.Printer

/-! # Output formats

Declarations and reports as text of the target language, as JSON or as YAML. The plain form of a
report is a text for readers.
-/

namespace Typings

inductive OutputFormat where
  | declarations
  | json
  | yaml
  deriving DecidableEq, Repr

def OutputFormat.ofName? (name : String) : Option OutputFormat :=
  match name with
  | "declarations" => some .declarations
  | "json" => some .json
  | "yaml" => some .yaml
  | _ => none

/-- A JSON value as text in a format of data; none for the plain format. -/
def OutputFormat.data? (format : OutputFormat) (j : Json) : Option String :=
  match format with
  | .declarations => none
  | .json => some j.pretty
  | .yaml => some (Yaml.print j)

def formatDeclarations (format : OutputFormat) (decls : List Declaration) : String :=
  (format.data? (.array (Declaration.listToJson decls))).getD (printDeclarations decls)

def Report.format (report : Report) (format : OutputFormat) : String :=
  (format.data? report.toJson).getD report.text

end Typings
