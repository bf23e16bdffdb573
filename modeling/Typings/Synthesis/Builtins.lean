import Typings.Synthesis.Merging

/-! # Builtin types

A builtin type that the target language has itself needs no declaration. A numeric one is a name for
numbers, and any other one is `any` unless an override says what it is.
-/

namespace Typings.Synth

open Schema (BuiltinType)

def plainBuiltin (ctx : Context) (name : String) (doc : Option String) : Synth Declaration := do
  if ctx.config.isNumeric name then return .alias ⟨name, .keyword .number, doc⟩
  else
    note (.missingBuiltinDefinition name)
    return .alias ⟨name, .any, doc⟩

/-- The declarations of a builtin type: one, or none. -/
def builtinDeclarations (ctx : Context) (builtin : BuiltinType) : Synth (List Declaration) := do
  let name := builtin.name
  match ← findOverride ctx name [.structural, .alias] with
  | some o => return [verbatim o (← describeEntity ctx name builtin.description [] [])]
  | none =>
    if ctx.config.isNative name then return []
    else
      let doc ← describeEntity ctx name builtin.description [] []
      return [← plainBuiltin ctx name doc]

def builtins (ctx : Context) : Synth (List Declaration) := do
  return (← each (builtinDeclarations ctx) (Schema.inOrder ctx.document.builtinTypes)).flatten

end Typings.Synth
