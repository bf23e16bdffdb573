import Typings.Synthesis.Session
import Typings.Text.Blank
import Typings.Text.Documentation
import Typings.Text.InlineLink

/-! # References to the documentation

References name entities, or members of entities, and resolve to addresses of documentation pages.

* `Context.lookup?`: the address of a reference.
* `Synth.resolve`: the same, with the start page and an advisory for a reference that has none.
* `Synth.renderLinks`: a text with its inline links resolved.
* `Synth.documentation`: the text of a documentation comment.
-/

namespace Typings

open Text (Documentation InlineLink Piece)

/-! ## Addresses -/

/-- The address of a member on a page, or of a member of what is already a part of a page. -/
def withFragment (url member : String) : String :=
  url ++ (if url.toList.contains '#' then "." else "#") ++ member

namespace Context

def classPage (ctx : Context) (name : String) : String :=
  let base := ctx.config.docBaseUrl
  let suffix := ctx.config.sharedPageSuffix
  if !suffix.isEmpty && suffix.toList.isSuffixOf name.toList then
    base ++ ctx.config.sharedPage ++ ".html#" ++ name
  else base ++ name ++ ".html"

/-- The address of an entity, by the first category that has the name. -/
def entityPage? (ctx : Context) (name : String) : Option String :=
  let base := ctx.config.docBaseUrl
  if ctx.isBuiltin name then some (base ++ "builtin-types.html#" ++ name)
  else if ctx.isClass name then some (ctx.classPage name)
  else if ctx.isEvent name then some (base ++ "events.html#" ++ name)
  else if ctx.isDefine name then some (base ++ "defines.html#" ++ name)
  else if ctx.isConcept name then some (base ++ "concepts.html#" ++ name)
  else if ctx.isGlobal name then some (base ++ "global-objects.html#" ++ name)
  else none

/-- The address of a reference: that of an entity, or of a member behind a double colon. -/
def lookup? (ctx : Context) (reference : String) : Option String :=
  match ctx.entityPage? reference with
  | some url => some url
  | none =>
    match Text.splitAtSeparator? reference.toList with
    | none => none
    | some (container, member) =>
      (ctx.entityPage? (.ofList container)).map (withFragment · (.ofList member))

end Context

/-! ## Resolution -/

namespace Synth

def unresolved (ctx : Context) (context reference : String) : Synth String := do
  note (.unresolvedLink context reference)
  return ctx.config.docBaseUrl

def resolve (ctx : Context) (context reference : String) : Synth String :=
  match ctx.lookup? reference with
  | some url => return url
  | none => unresolved ctx context reference

inductive Target where
  /-- An address. -/
  | address
  /-- An entity or a member of one. -/
  | reference
  /-- An operator of an entity: its fragment on the page of the entity, if it has one. -/
  | operator (container : String) (fragment : Option String)
  /-- An operator that does not exist. -/
  | unknownOperator
  deriving DecidableEq, Repr

def operatorFragment (sign : List Char) (container : String) : Target :=
  if sign = ['#'] then .operator container (some "operator%20%23")
  else if sign = ['(', ')'] then .operator container (some "operator%20()")
  else if sign = ['[', ']'] then .operator container none
  else .unknownOperator

def Target.of (target : List Char) : Target :=
  if "http://".toList.isPrefixOf target || "https://".toList.isPrefixOf target then .address
  else
    match Text.splitAtSeparator? target with
    | none => .reference
    | some (container, member) =>
      match Text.afterStart? "operator ".toList member with
      | none => .reference
      | some sign =>
        operatorFragment (Text.trimEndChars (Text.trimStartChars sign)) (.ofList container)

def resolveTarget (ctx : Context) (context : String) (target : List Char) : Synth String :=
  let text : String := .ofList target
  match Target.of target with
  | .address => return text
  | .reference => resolve ctx context text
  | .unknownOperator => throw (.unknownOperatorSuffix context text)
  | .operator container fragment =>
    match ctx.entityPage? container with
    | none => unresolved ctx context text
    | some url =>
      return match fragment with
      | some fragment => withFragment url fragment
      | none => url

def linkTag (url : String) (label : List Char) : String :=
  if label.isEmpty then "\x7b@link " ++ url ++ "\x7d"
  else "\x7b@link " ++ url ++ " | " ++ .ofList label ++ "\x7d"

/-- A piece of a text, a link with its target resolved. -/
def renderPiece (ctx : Context) (context : String) : Piece → Synth String
  | .char c => return .ofList [c]
  | .link link => do
    let target := Text.trimEndChars (Text.trimStartChars link.target)
    let url ← resolveTarget ctx context target
    return linkTag url link.label

def renderLinks (ctx : Context) (context text : String) : Synth String := do
  let parts ← each (renderPiece ctx context) (Text.pieces text.toList)
  return String.join parts

/-- The text of a documentation comment, from parts whose links are still to be resolved and the
    reference to the page on the subject. -/
def documentation (ctx : Context) (context : String) (source : Documentation) :
    Synth (Option String) := do
  let description ← renderLinks ctx context source.description
  let notes ← each (renderLinks ctx context) source.notes
  let see ←
    match source.see with
    | some reference => some <$> resolve ctx context reference
    | none => pure none
  return Documentation.render { description, notes, examples := source.examples, see }

def describe (ctx : Context) (context description : String) : Synth (Option String) :=
  documentation ctx context { description }

def describeEntity (ctx : Context) (name description : String) (notes examples : List String) :
    Synth (Option String) :=
  documentation ctx name { description, notes, examples, see := some name }

end Synth

end Typings
