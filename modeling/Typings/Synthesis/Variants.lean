import Typings.Synthesis.TypeMapping
import Typings.Text.Discriminator
import Typings.Text.Pascal

/-! # Tables with variants

A table whose parameters come in groups becomes a base interface with the shared parameters, an
interface for each group that extends it, and the union of these. If the description names the field
that tells the variants apart, each group narrows that field to its own name.

* `VariantTable`: the table.
* `expandVariants`: its declarations.
-/

namespace Typings

open Schema (Parameter ParameterGroup)

structure VariantTable where
  name : String
  parameters : List Parameter
  groups : List ParameterGroup
  description : Option String

namespace VariantTable

/-- The field that tells the variants apart. -/
def discriminator? (table : VariantTable) : Option String :=
  table.description.bind Text.discriminatorField?

def baseName (table : VariantTable) : String :=
  "Base" ++ table.name

def afterLastDot (cs : List Char) : List Char :=
  (cs.reverse.takeWhile (· != '.')).reverse

def groupName (table : VariantTable) (group : ParameterGroup) : String :=
  Text.pascalCase (.ofList (afterLastDot group.name.toList)) ++ table.name

/-- The parameters of the base interface, in order: all but the one that tells the variants
    apart. -/
def baseParameters (table : VariantTable) : List Parameter :=
  table.parameters.filter fun parameter => table.discriminator? != some parameter.name

/-- The property of a group that tells it from the others. -/
def narrowedProperty (ctx : Context) (group : ParameterGroup) (field : String) : Member :=
  .plainProperty field
    (if ctx.isDefine group.name then .named group.name else .text group.name)

end VariantTable

namespace Synth

def variantBase (ctx : Context) (table : VariantTable) : Synth Declaration := do
  let members ← parameterMembers ctx table.name table.baseParameters
  return .interface { name := table.baseName, members }

def variantGroup (ctx : Context) (table : VariantTable) (group : ParameterGroup) :
    Synth Declaration := do
  let members ← parameterMembers ctx (table.name ++ "." ++ group.name) group.parameters
  let narrowed := (table.discriminator?.map (VariantTable.narrowedProperty ctx group)).toList
  return .interface
    { name := table.groupName group
      supertypes := [.named table.baseName]
      members := narrowed ++ members }

/-- The type of the table: the union of its groups, or the base if there are none. -/
def variantUnion (table : VariantTable) : List ParameterGroup → Ty
  | [] => .named table.baseName
  | groups => .unionOf (groups.map fun group => .named (table.groupName group))

def expandVariants (ctx : Context) (table : VariantTable) (doc : Option String) :
    Synth (List Declaration) := do
  let groups := Schema.inOrder table.groups
  let base ← variantBase ctx table
  let interfaces ← each (variantGroup ctx table) groups
  return base :: interfaces ++ [.alias ⟨table.name, variantUnion table groups, doc⟩]

end Synth

end Typings
