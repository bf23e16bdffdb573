import Typings.Declaration.Printer
import Typings.Report
import Typings.Synthesis.Builtins
import Typings.Synthesis.Classes
import Typings.Synthesis.Concepts
import Typings.Synthesis.Constants
import Typings.Synthesis.Events
import Typings.Synthesis.Globals

/-! # Generation

The declarations of a document, category by category, with the overrides that nothing asked for at
the end.

* `Synth.segments`: the declarations of each category.
* `Synth.everything`: the declarations in order, and their numbers.
* `generate`: the declarations of a usable document, as values and as text, with the report.
-/

namespace Typings

structure Segments where
  builtins : List Declaration
  defines : List Declaration
  events : List Declaration
  classes : List Declaration
  concepts : List Declaration
  globals : List Declaration
  unmatchedOverrides : List Declaration

namespace Segments

def declarations (s : Segments) : List Declaration :=
  s.builtins ++ s.defines ++ s.events ++ s.classes ++ s.concepts ++ s.globals
    ++ s.unmatchedOverrides

def counts (s : Segments) : CategoryCounts :=
  ⟨s.builtins.length, s.defines.length, s.events.length, s.classes.length, s.concepts.length,
    s.globals.length, s.unmatchedOverrides.length⟩

end Segments

/-- The overrides that were not used, with their own documentation. -/
def unmatchedOverrides (ctx : Context) (session : Session) : List Declaration :=
  (ctx.overrides.overrides.filter fun o => !session.hasUsed o.name).map Override.documented

namespace Synth

def segments (ctx : Context) : Synth Segments := do
  let builtins ← builtins ctx
  let defines ← constants ctx
  let events ← events ctx
  let classes ← classes ctx
  let concepts ← concepts ctx
  let globals ← globals ctx
  let unmatchedOverrides := unmatchedOverrides ctx (← get)
  return { builtins, defines, events, classes, concepts, globals, unmatchedOverrides }

/-- All declarations in order, with the number of each category. -/
def everything (ctx : Context) : Synth (List Declaration × CategoryCounts) := do
  let s ← segments ctx
  return (s.declarations, s.counts)

end Synth

structure Generation where
  declarations : List Declaration
  printed : String
  report : Report

/-- The outcome of a run on a document, whether it is usable or not. -/
def synthesize (document : Schema.Document) (overrides : OverrideStore) (config : Config) :
    Except SynthesisError Generation :=
  match (Synth.everything (.of document overrides config)).run.run {} with
  | (.error e, _) => .error e
  | (.ok (declarations, counts), session) =>
    let printed := printDeclarations declarations
    .ok ⟨declarations, printed,
      .of document.applicationVersion counts session.advisories printed⟩

/-- The outcome of a run. An unusable document is an error. -/
def generate (document : Schema.Document) (overrides : OverrideStore) (config : Config) :
    Except SynthesisError Generation :=
  match document.error? with
  | some e => .error (.invalidSchema e)
  | none => synthesize document overrides config

end Typings
