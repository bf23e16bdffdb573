import Typings.Synthesis.TypeMapping

/-! # Global objects

A global object becomes a constant of its type.
-/

namespace Typings.Synth

open Schema (GlobalObject)

def globalDeclaration (ctx : Context) (object : GlobalObject) : Synth Declaration := do
  let ty ← mapType ctx object.name object.type
  let doc ← describeEntity ctx object.name object.description [] []
  return .const ⟨object.name, ty, doc⟩

def globals (ctx : Context) : Synth (List Declaration) :=
  each (globalDeclaration ctx) (Schema.inOrder ctx.document.globalObjects)

end Typings.Synth
