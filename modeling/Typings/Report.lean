import Typings.Advisory
import Typings.Digest

/-! # Reports

The summary of a run.

* `CategoryCounts`: how many declarations there are of each category.
* `Report`: counts, advisories and the digest of the output.
* `Report.text`: the report as plain text.
* `Report.toJson`, `Report.decoder`: its JSON form.
-/

namespace Typings

open Json (Decoder Record)

structure CategoryCounts where
  builtins : Nat := 0
  defines : Nat := 0
  events : Nat := 0
  classes : Nat := 0
  concepts : Nat := 0
  globals : Nat := 0
  unmatchedOverrides : Nat := 0
  deriving DecidableEq, Repr

namespace CategoryCounts

def total (counts : CategoryCounts) : Nat :=
  counts.builtins + counts.defines + counts.events + counts.classes + counts.concepts
    + counts.globals + counts.unmatchedOverrides

def toJson (counts : CategoryCounts) : Json :=
  .object [.field "builtins" (.integer counts.builtins),
    .field "defines" (.integer counts.defines), .field "events" (.integer counts.events),
    .field "classes" (.integer counts.classes), .field "concepts" (.integer counts.concepts),
    .field "globals" (.integer counts.globals),
    .field "unmatched_overrides" (.integer counts.unmatchedOverrides)]

def decoder : Decoder CategoryCounts :=
  Record.decoder
    (CategoryCounts.mk <$> .required "builtins" .size <*> .required "defines" .size
      <*> .required "events" .size <*> .required "classes" .size <*> .required "concepts" .size
      <*> .required "globals" .size <*> .required "unmatched_overrides" .size)
    "struct CategoryCounts"

/-- The counts with the names that the plain text gives them. -/
def labelled (counts : CategoryCounts) : List (String × Nat) :=
  [("builtins", counts.builtins), ("defines", counts.defines), ("events", counts.events),
    ("classes", counts.classes), ("concepts", counts.concepts), ("globals", counts.globals),
    ("unmatched overrides", counts.unmatchedOverrides)]

end CategoryCounts

structure Report where
  applicationVersion : String
  counts : CategoryCounts
  /-- The number of advisories of each code. -/
  advisorySummary : List (String × Nat)
  advisories : List Advisory
  /-- The digest of the printed declarations. -/
  outputDigest : String

namespace Report

def of (applicationVersion : String) (counts : CategoryCounts) (advisories : List Advisory)
    (printed : String) : Report :=
  ⟨applicationVersion, counts, Advisory.summary advisories, advisories, Digest.sha256 printed⟩

def padded (width : Nat) (text : String) : String :=
  text ++ .ofList (List.replicate (width - text.length) ' ')

/-- A line of a table: a name in a column of the given width, and a number. -/
def tableLine (width : Nat) (row : String × Nat) : String :=
  "  " ++ padded width row.1 ++ " " ++ toString row.2 ++ "\n"

def versionText (version : String) : String :=
  if version.isEmpty then "(unknown version)" else version

def advisoryText (report : Report) : String :=
  if report.advisories.isEmpty then "No advisories\n"
  else
    toString report.advisories.length ++ " advisories:\n"
      ++ String.join (report.advisorySummary.map (tableLine 28))

def text (report : Report) : String :=
  "Generated " ++ toString report.counts.total ++ " declarations for API "
    ++ versionText report.applicationVersion ++ "\n"
    ++ String.join (report.counts.labelled.map (tableLine 20))
    ++ report.advisoryText ++ "sha256 " ++ report.outputDigest ++ "\n"

def toJson (report : Report) : Json :=
  .object [.field "application_version" (.string report.applicationVersion),
    .field "counts" report.counts.toJson,
    .field "advisory_summary"
      (.object (report.advisorySummary.map fun (code, count) => .field code (.integer count))),
    .field "advisories" (.array (report.advisories.map Advisory.toJson)),
    .field "output_sha256" (.string report.outputDigest)]

def decoder : Decoder Report :=
  Record.decoder
    (Report.mk <$> .required "application_version" .string
      <*> .required "counts" CategoryCounts.decoder
      <*> .required "advisory_summary" (.dictionary .size)
      <*> .required "advisories" (.list Advisory.decoder)
      <*> .required "output_sha256" .string)
    "struct GenerationReport"

end Report

end Typings
