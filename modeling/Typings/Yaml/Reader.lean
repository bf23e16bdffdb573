import Typings.Json.Basic
import Typings.Yaml.Token

/-! # Reading YAML

The tokens of a text make up a value. Scalars without quotes keep how they are written; what is left
out is the scalar without characters.

* `bareScalar`: a scalar without quotes with the value that it stands for.
* `Position`, `node?`: a value where it may stand.
* `read?`: the value of a text that holds one document.
-/

namespace Typings.Yaml

open Json (Entry)

/-! ## Scalars -/

/-- The value that a scalar without quotes stands for. There is none for an integer of more than 64
    bits. -/
def bareValue (text : String) : Json :=
  if text.isEmpty || nullWord text then .null
  else
    match boolWord? text, integerOf? text.toList with
    | some value, _ => .bool value
    | none, some value =>
      if -Nat.pow 2 63 ≤ value ∧ value < Nat.pow 2 64 then .integer value
      else .fault .malformed none
    | none, none => if isFloat text then .decimal text else .string text

def bareScalar (text : String) : Json :=
  .scalar text (bareValue text)

def absent : Json :=
  bareScalar ""

/-- The entry of a key, which has to be a scalar. -/
def entryOf (key value : Json) : Entry :=
  match key with
  | .string text => .field text value
  | .scalar written _ => .field written value
  | _ => .fault .malformed none

/-! ## Values -/

/-- Where a value stands: inside brackets, outside of them, or there as part of an entry, where the
    items of a list need no indentation. -/
inductive Position where
  | flow
  | block
  | entry
  deriving DecidableEq

def isNext (tokens : List Token) : List Token → Bool
  | [] => false
  | t :: _ => tokens.contains t

mutual

/-- A value, and what follows it; `fuel` bounds the depth of the calls. -/
def node? (fuel : Nat) (position : Position) (ts : List Token) : Option (Json × List Token) :=
  match fuel with
  | 0 => none
  | fuel + 1 =>
    match ts, position with
    | .bare text :: rest, _ => some (bareScalar text, rest)
    | .quoted text :: rest, _ => some (.string text, rest)
    | .flowListStart :: rest, _ => asArray (flowItems? fuel true rest)
    | .flowMapStart :: rest, _ => asObject (flowEntries? fuel true rest)
    | .listStart :: rest, .block => asArray (items? fuel rest)
    | .listStart :: rest, .entry => asArray (items? fuel rest)
    | .mapStart :: rest, .block => asObject (entries? fuel rest)
    | .mapStart :: rest, .entry => asObject (entries? fuel rest)
    | .item :: _, .entry => asArray (looseItems? fuel ts)
    | _, _ => none
where
  /-- The list of the items. -/
  asArray (items : Option (List Json × List Token)) : Option (Json × List Token) :=
    items.map fun (items, rest) => (.array items, rest)
  /-- The mapping of the entries. -/
  asObject (entries : Option (List Entry × List Token)) : Option (Json × List Token) :=
    entries.map fun (entries, rest) => (.object entries, rest)

/-- A value that may be left out, which shows in one of the tokens `ends`. -/
def optionalNode? (fuel : Nat) (position : Position) (ends ts : List Token) :
    Option (Json × List Token) :=
  match fuel with
  | 0 => none
  | fuel + 1 => if isNext ends ts then some (absent, ts) else node? fuel position ts

def items? (fuel : Nat) (ts : List Token) : Option (List Json × List Token) :=
  match fuel, ts with
  | _, .blockEnd :: rest => some ([], rest)
  | fuel + 1, .item :: rest => do
    let (j, rest) ← optionalNode? fuel .block [.item, .blockEnd] rest
    let (js, rest) ← items? fuel rest
    return (j :: js, rest)
  | _, _ => none

/-- The items of a list that is not indented, as far as they go. -/
def looseItems? (fuel : Nat) (ts : List Token) : Option (List Json × List Token) :=
  match fuel, ts with
  | fuel + 1, .item :: rest => do
    let (j, rest) ← optionalNode? fuel .block [.item, .key, .value, .blockEnd] rest
    let (js, rest) ← looseItems? fuel rest
    return (j :: js, rest)
  | 0, .item :: _ => none
  | _, ts => some ([], ts)

def entries? (fuel : Nat) (ts : List Token) : Option (List Entry × List Token) :=
  match fuel, ts with
  | _, .blockEnd :: rest => some ([], rest)
  | fuel + 1, .key :: rest => do
    let (key, rest) ← optionalNode? fuel .entry [.key, .value, .blockEnd] rest
    let (value, rest) ← entryValue? fuel .entry [.key, .value, .blockEnd] rest
    let (entries, rest) ← entries? fuel rest
    return (entryOf key value :: entries, rest)
  | _, _ => none

def entryValue? (fuel : Nat) (position : Position) (ends ts : List Token) :
    Option (Json × List Token) :=
  match fuel, ts with
  | fuel + 1, .value :: rest => optionalNode? fuel position ends rest
  | 0, .value :: _ => none
  | _, ts => some (absent, ts)

/-- The items of a list in brackets up to its end. Between two of them there is a comma. An item may
    be a single entry; it stands for the mapping that holds it. -/
def flowItems? (fuel : Nat) (isFirst : Bool) (ts : List Token) :
    Option (List Json × List Token) :=
  match fuel, isFirst, ts with
  | _, _, .flowListEnd :: rest => some ([], rest)
  | fuel + 1, false, .comma :: rest => flowItems? fuel true rest
  | _, false, _ => none
  | fuel + 1, true, .key :: rest => do
    let (key, rest) ← node? fuel .flow rest
    let (value, rest) ← entryValue? fuel .flow [.comma, .flowListEnd] rest
    let (js, rest) ← flowItems? fuel false rest
    return (.object [entryOf key value] :: js, rest)
  | fuel + 1, true, ts => do
    let (j, rest) ← node? fuel .flow ts
    let (js, rest) ← flowItems? fuel false rest
    return (j :: js, rest)
  | 0, true, _ => none

/-- The entries of a mapping in brackets up to its end. Between two of them there is a comma. -/
def flowEntries? (fuel : Nat) (isFirst : Bool) (ts : List Token) :
    Option (List Entry × List Token) :=
  match fuel, isFirst, ts with
  | _, _, .flowMapEnd :: rest => some ([], rest)
  | fuel + 1, false, .comma :: rest => flowEntries? fuel true rest
  | _, false, _ => none
  | fuel + 1, true, .key :: rest => do
    let (key, rest) ← optionalNode? fuel .flow [.value, .comma, .flowMapEnd] rest
    let (value, rest) ← entryValue? fuel .flow [.comma, .flowMapEnd] rest
    let (entries, rest) ← flowEntries? fuel false rest
    return (entryOf key value :: entries, rest)
  | fuel + 1, true, ts => do
    let (key, rest) ← node? fuel .flow ts
    let (entries, rest) ← flowEntries? fuel false rest
    return (entryOf key absent :: entries, rest)
  | 0, true, _ => none

end

/-! ## Documents -/

/-- The value of a document from its content on, and what follows it. -/
def content? (ts : List Token) : Option (Json × List Token) :=
  node? (4 * ts.length + 4) .block ts

def document? (ts : List Token) : Option Json := do
  let (value, rest) ←
    match ts with
    | [] => some (absent, [])
    | .documentStart :: rest =>
      if rest.isEmpty || isNext [.documentStart, .documentEnd] rest then some (absent, rest)
      else content? rest
    | ts => content? ts
  if (rest.dropWhile (· == .documentEnd)).isEmpty then some value else none

/-- The number of collections around a value that may still be read. -/
def maxDepth : Nat := 128

/-- The value of a text; none if the text is malformed or holds several documents. -/
def read? (text : String) : Option Json := do
  let ts ← tokens? text
  let value ← document? ts
  return value.limit maxDepth

end Typings.Yaml
