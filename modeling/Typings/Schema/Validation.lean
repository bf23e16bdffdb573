import Typings.Schema.Basic
import Typings.Text.Blank

/-! # Usable documents

A document is usable if it describes the supported interface and names each of its entities once.

* `ValidationError`: what makes a document unusable.
* `Document.error?`: the first such thing. The header comes before the names, the names of the
  entities by category before those of the constants, and in the tree of constants the names of
  siblings before the values of each node, and these before the nodes below it.
-/

namespace Typings.Schema

def supportedApplication : String := "factorio"

def supportedStage : String := "runtime"

def supportedApiVersion : Nat := 3

inductive NameCategory where
  | builtinTypes
  | classes
  | concepts
  | events
  | globalObjects
  | defines
  | defineValues
  deriving DecidableEq, Repr

def NameCategory.label : NameCategory → String
  | .builtinTypes => "builtin type"
  | .classes => "class"
  | .concepts => "concept"
  | .events => "event"
  | .globalObjects => "global object"
  | .defines => "define"
  | .defineValues => "define value"

inductive ValidationError where
  | unsupportedApplication (found : String)
  | unsupportedStage (found : String)
  | unsupportedApiVersion (found : Nat)
  | emptyName (category : NameCategory)
  | duplicateName (category : NameCategory) (name : String)
  deriving DecidableEq, Repr

def ValidationError.message : ValidationError → String
  | .unsupportedApplication found =>
    "unsupported application `" ++ found ++ "` (expected `" ++ supportedApplication ++ "`)"
  | .unsupportedStage found =>
    "unsupported stage `" ++ found ++ "` (expected `" ++ supportedStage ++ "`)"
  | .unsupportedApiVersion found =>
    "unsupported api_version " ++ toString found ++ " (expected " ++ toString supportedApiVersion
      ++ ")"
  | .emptyName category => "empty " ++ category.label ++ " name"
  | .duplicateName category name => "duplicate " ++ category.label ++ " `" ++ name ++ "`"

/-- The first name that is blank or was there before; `seen` holds the names so far. -/
def nameErrorAfter? (category : NameCategory) (seen : List String) :
    List String → Option ValidationError
  | [] => none
  | name :: names =>
    if Text.isBlankText name then some (.emptyName category)
    else if seen.contains name then some (.duplicateName category name)
    else nameErrorAfter? category (name :: seen) names

def nameError? (category : NameCategory) (names : List String) : Option ValidationError :=
  nameErrorAfter? category [] names

mutual

/-- The first name below a node that is blank or repeated: its values, then its subkeys. -/
def Define.error? : Define → Option ValidationError
  | .node _ _ _ values subkeys =>
    (nameError? .defineValues (values.map (·.name))).or
      ((nameError? .defines (subkeys.map Define.name)).or (Define.listError? subkeys))

def Define.listError? : List Define → Option ValidationError
  | [] => none
  | d :: ds => d.error?.or (Define.listError? ds)

end

namespace Document

def headerError? (document : Document) : Option ValidationError :=
  if document.application ≠ supportedApplication then
    some (.unsupportedApplication document.application)
  else if document.stage ≠ supportedStage then some (.unsupportedStage document.stage)
  else if document.apiVersion ≠ supportedApiVersion then
    some (.unsupportedApiVersion document.apiVersion)
  else none

/-- The names of the entities by category, in the order in which they are checked. -/
def namesByCategory (document : Document) : List (NameCategory × List String) :=
  [(.builtinTypes, document.builtinTypes.map (·.name)),
    (.classes, document.classes.map (·.name)),
    (.concepts, document.concepts.map (·.name)),
    (.events, document.events.map (·.name)),
    (.globalObjects, document.globalObjects.map (·.name)),
    (.defines, document.defines.map Define.name)]

def error? (document : Document) : Option ValidationError :=
  document.headerError?.or
    ((document.namesByCategory.findSome? fun (category, names) => nameError? category names).or
      (Define.listError? document.defines))

/-- The things that make the document unusable: none, or the first one. -/
def errors (document : Document) : List ValidationError :=
  document.error?.toList

end Document

end Typings.Schema
