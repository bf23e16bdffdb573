import Typings.Synthesis.Merging
import Typings.Text.Pascal

/-! # Events

An event becomes an interface with a property for each datum it carries. Its override goes by the
name of the interface.
-/

namespace Typings.Synth

open Schema (Event)

def eventName (event : Event) : String :=
  Text.pascalCase event.name ++ "Event"

def eventDeclaration (ctx : Context) (event : Event) : Synth Declaration := do
  let name := eventName event
  let o ← findOverride ctx name [.structural]
  let doc ← describeEntity ctx event.name event.description event.notes event.examples
  let members ← mergeParameters ctx name o event.data
  let members ← appendUnclaimed name o members
  return mergedInterface name o members doc

def events (ctx : Context) : Synth (List Declaration) :=
  each (eventDeclaration ctx) (Schema.inOrder ctx.document.events)

end Typings.Synth
