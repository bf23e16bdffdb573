import Typings.Synthesis.Merging
import Typings.Synthesis.Positional
import Typings.Synthesis.Variants
import Typings.Text.Quotation

/-! # Concepts

A concept becomes what its category says:

* one in prose is what its override says, and otherwise `any`;
* a union or an enumeration is the union of its options;
* a structure, a flag set, a table or a filter is an interface, unless the table has variants;
* a table or array is the union of a structural type and a tuple.

An override of an interface is merged with it, an alias stands for the whole concept.
-/

namespace Typings.Synth

open Schema (Concept NamedOption Parameter TableShape UnionOption)

/-! ## Forms of concepts -/

/-- A concept that is described in prose only. -/
def proseConcept (ctx : Context) (name : String) (doc : Option String) :
    Synth (List Declaration) := do
  match ← findOverride ctx name [.structural, .alias] with
  | some o => return [verbatim o doc]
  | none =>
    note (.missingConceptDefinition name)
    return [.alias ⟨name, .any, doc⟩]

def aliasConcept (ctx : Context) (name : String) (doc : Option String) (type : Synth Ty) :
    Synth (List Declaration) := do
  match ← findOverride ctx name [.alias] with
  | some o => return [verbatim o doc]
  | none => return [.alias ⟨name, ← type, doc⟩]

/-- A concept that is an interface with the members that `members` makes, given the override. -/
def structuralConcept (ctx : Context) (name : String) (doc : Option String)
    (members : Option Override → Synth (List Member)) : Synth (List Declaration) := do
  let o ← findOverride ctx name [.structural, .alias]
  match o.filter (·.kind == .alias) with
  | some o => return [verbatim o doc]
  | none =>
    let own ← members o
    let all ← appendUnclaimed name o own
    return [mergedInterface name o all doc]

/-! ## Unions and enumerations -/

/-- The types of an option. A text whose description quotes tokens is one of these. -/
def unionOptionTypes (ctx : Context) (name : String) (option : UnionOption) : Synth (List Ty) := do
  let tokens := if option.type.name? == some "string" then Text.quotedTokens option.description
    else []
  match tokens with
  | [] => return [← mapType ctx name option.type]
  | tokens => return tokens.map .text

def unionType (ctx : Context) (name : String) (options : List UnionOption) : Synth Ty := do
  return .unionOf (← each (unionOptionTypes ctx name) (Schema.inOrder options)).flatten

def enumerationType (options : List NamedOption) : Ty :=
  .unionOf ((Schema.inOrder options).map fun option => .text option.name)

/-! ## Flags -/

def flagProperty (name : String) : Member :=
  .property name (.keyword .boolean) true false none

def flagMember (ctx : Context) (name : String) (o : Option Override) (option : NamedOption) :
    Synth Member := do
  let doc ← describe ctx (name ++ "." ++ option.name) option.description
  mergeMember name o option.name .property doc (return flagProperty option.name)

/-! ## Tables or arrays -/

/-- The element for the parameter at an index, with its type. An optional one that is not behind the
    last required one, which is at `last`, is widened. -/
def positionalElement (last : Option Nat) (index : Nat) (parameter : Parameter) (ty : Ty) :
    TupleElement :=
  let trailing := last.all (· < index)
  if parameter.optional && !trailing then ⟨parameter.name, ty.orUndefined, false⟩
  else ⟨parameter.name, ty, parameter.optional⟩

def fieldAndElement (ctx : Context) (name : String) (last : Option Nat) (index : Nat)
    (parameter : Parameter) : Synth (Member × TupleElement) := do
  let context := name ++ "." ++ parameter.name
  let ty ← mapType ctx context parameter.type
  let doc ← describe ctx context parameter.description
  return (.property parameter.name ty parameter.optional false doc,
    positionalElement last index parameter ty)

def fieldsAndElements (ctx : Context) (name : String) (last : Option Nat) (index : Nat) :
    List Parameter → Synth (List (Member × TupleElement))
  | [] => return []
  | parameter :: rest => do
    let first ← fieldAndElement ctx name last index parameter
    let others ← fieldsAndElements ctx name last (index + 1) rest
    return first :: others

/-- The type of a table that may also be written as an array of the same parameters. -/
def tableOrArrayType (ctx : Context) (name : String) (parameters : List Parameter) :
    Synth Ty := do
  let sorted := Schema.inOrder parameters
  let last := lastPosition? (fun parameter => !parameter.optional) sorted
  let pairs ← fieldsAndElements ctx name last 0 sorted
  return .union [.literal (pairs.map (·.1)), .tuple (pairs.map (·.2))]

/-! ## Tables -/

def tableConcept (ctx : Context) (concept : Concept) (shape : TableShape) (doc : Option String) :
    Synth (List Declaration) := do
  let name := concept.name
  if shape.groups.isEmpty then
    structuralConcept ctx name doc fun o => mergeParameters ctx name o shape.parameters
  else
    match ← findOverride ctx name [.alias] with
    | some o => return [verbatim o doc]
    | none =>
      let description := shape.groupDescription.getD concept.description
      expandVariants ctx ⟨name, shape.parameters, shape.groups, some description⟩ doc

/-! ## Concepts -/

def documentedConcept (ctx : Context) (concept : Concept) (doc : Option String) :
    Synth (List Declaration) :=
  let name := concept.name
  match concept.kind with
  | .prose => proseConcept ctx name doc
  | .union options => aliasConcept ctx name doc (unionType ctx name options)
  | .enumeration options => aliasConcept ctx name doc (return enumerationType options)
  | .tableOrArray parameters => aliasConcept ctx name doc (tableOrArrayType ctx name parameters)
  | .structure attributes =>
    structuralConcept ctx name doc fun o =>
      each (mergeAttribute ctx name o) (Schema.inOrder attributes)
  | .flag options =>
    structuralConcept ctx name doc fun o => each (flagMember ctx name o) (Schema.inOrder options)
  | .table shape => tableConcept ctx concept shape doc
  | .filter shape => tableConcept ctx concept shape doc

def conceptDeclarations (ctx : Context) (concept : Concept) : Synth (List Declaration) := do
  let doc ←
    describeEntity ctx concept.name concept.description concept.notes concept.examples
  documentedConcept ctx concept doc

def concepts (ctx : Context) : Synth (List Declaration) := do
  return (← each (conceptDeclarations ctx) (Schema.inOrder ctx.document.concepts)).flatten

end Typings.Synth
