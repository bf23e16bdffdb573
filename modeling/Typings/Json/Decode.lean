import Typings.Json.Basic
import Typings.Text.Visible

/-! # Decoding JSON values

Values of the library are read from JSON values by decoders. A decoder walks its value from left to
right and stops at the first thing that is wrong, be it the text or the data.

* `Json.Error`, `Json.Error.message`: what can be wrong.
* `Reading`, `Decoder`: a value is decoded while its text is read, or after it was read as a whole.
* `Record`: a decoder of several named fields, put together field by field. A record is written as
  an object, or as the array of its fields in order.
* `Decoder.choice`, `Decoder.alternative`, `Decoder.tagged`: enumerations; an alternative is an
  object with one entry, a tagged one names its variant in one of its fields.
* `Decoder.fix`: decoders of values that contain values of their own kind.
-/

namespace Typings.Json

/-! ## Errors -/

/-- What stands where something else is expected. -/
inductive Found where
  | null
  | bool (value : Bool)
  | integer (value : Int)
  | decimal (shown : String)
  | string (text : String)
  | sequence
  | map
  | unit
  deriving DecidableEq, Repr

/-- What is wrong with a document: the text, or the data it holds. -/
inductive Error where
  | text (fault : Fault)
  | missingField (name : String)
  | duplicateField (name : String)
  | unknownVariant (found : String) (expected : List String)
  | invalidType (found : Found) (expected : String)
  | invalidValue (found : Found) (expected : String)
  | invalidLength (length : Nat) (expected : String)
  /-- The data has the right form, but the value has no use for it. -/
  | rejected (reason : String)
  deriving DecidableEq, Repr

def Found.shown : Found → String
  | .null => "null"
  | .bool value => "boolean `" ++ (if value then "true" else "false") ++ "`"
  | .integer value => "integer `" ++ toString value ++ "`"
  | .decimal shown => "floating point `" ++ shown ++ "`"
  | .string text => "string " ++ Text.showQuoted text
  | .sequence => "sequence"
  | .map => "map"
  | .unit => "unit variant"

def showChoice : List String → String
  | [] => "there are no variants"
  | [a] => "expected `" ++ a ++ "`"
  | [a, b] => "expected `" ++ a ++ "` or `" ++ b ++ "`"
  | names => "expected one of " ++ ", ".intercalate (names.map fun n => "`" ++ n ++ "`")

/-- The message of an error in the data; an error of the text has none. -/
def Error.message : Error → String
  | .text _ => ""
  | .missingField name => "missing field `" ++ name ++ "`"
  | .duplicateField name => "duplicate field `" ++ name ++ "`"
  | .unknownVariant found expected => "unknown variant `" ++ found ++ "`, " ++ showChoice expected
  | .invalidType found expected => "invalid type: " ++ found.shown ++ ", expected " ++ expected
  | .invalidValue found expected => "invalid value: " ++ found.shown ++ ", expected " ++ expected
  | .invalidLength length expected =>
    "invalid length " ++ toString length ++ ", expected " ++ expected
  | .rejected reason => reason

/-- What a value is taken for when something else is expected. -/
def found : Json → Found
  | .null => .null
  | .bool value => .bool value
  | .integer value => .integer value
  | .decimal shown => .decimal shown
  | .string text => .string text
  | .scalar written _ => .string written
  | .array _ => .sequence
  | .object _ => .map
  | .fault _ _ => .null

def mismatch (j : Json) (expected : String) : Error :=
  match j with
  | .fault read _ => .text read
  | j => .invalidType j.found expected

def plain : Json → Json
  | .scalar _ j => j
  | j => j

/-- Whether nothing is written where the value should be: a bare scalar without characters. -/
def isAbsent : Json → Bool
  | .scalar written _ => written.isEmpty
  | _ => false

/-! ## Decoders -/

/-- A value is decoded while its text is read, or after it was read as a whole and held. -/
inductive Reading where
  | direct
  | held
  deriving DecidableEq, Repr

/-- A reader of values of type `α`. -/
abbrev Decoder (α : Type) := Reading → Json → Except Error α

/-- Passes the value on if it can be read as a whole; its bare scalars become what they stand
    for. -/
def hold (j : Json) : Except Error Json :=
  match j.readFault? with
  | some f => .error (.text f)
  | none => .ok j.settled

def pass (j : Json) : Except Error Unit :=
  match j.skipFault? with
  | some f => .error (.text f)
  | none => .ok ()

namespace Decoder

variable {α : Type}

def mapTo {β : Type} (f : α → β) (value : Decoder α) : Decoder β := fun reading j =>
  (value reading j).map f

/-- A text. While the text of the document is read, a bare scalar is the text it is written as. -/
def string : Decoder String := fun reading j =>
  match reading, j with
  | _, .string text => .ok text
  | .direct, .scalar written _ => .ok written
  | _, j => .error (mismatch j.plain "a string")

def bool : Decoder Bool := fun _ j =>
  match j.plain with
  | .bool value => .ok value
  | j => .error (mismatch j "a boolean")

def integer (low high : Int) (expected : String) : Decoder Int := fun _ j =>
  match j.plain with
  | .integer value =>
    if low ≤ value ∧ value ≤ high then .ok value
    else .error (.invalidValue (.integer value) expected)
  | j => .error (mismatch j expected)

/-- A whole number of 32 bits, not negative. -/
def word32 : Decoder Nat := fun reading j =>
  (integer 0 (Nat.pow 2 32 - 1) "u32" reading j).map Int.toNat

def int64 : Decoder Int :=
  integer (-Nat.pow 2 63) (Nat.pow 2 63 - 1) "i64"

def size : Decoder Nat := fun reading j =>
  (integer 0 (Nat.pow 2 64 - 1) "usize" reading j).map Int.toNat

def items (item : Decoder α) (reading : Reading) : List Json → Except Error (List α)
  | [] => .ok []
  | j :: js => do
    let x ← item reading j
    let xs ← items item reading js
    return x :: xs

/-- A list. What is left out while the text is read is an empty one. -/
def list (item : Decoder α) : Decoder (List α) := fun reading j =>
  if reading = .direct ∧ j.isAbsent then .ok []
  else
    match j.plain with
    | .array js => items item reading js
    | j => .error (mismatch j "a sequence")

def nullable (value : Decoder α) : Decoder (Option α) := fun reading j =>
  match j.plain with
  | .null => .ok none
  | _ => (value reading j).map some

/-- The values under the keys of a dictionary; of entries with one key the last one stays. -/
def dictionaryEntries (value : Decoder α) (reading : Reading) : List Entry →
    Except Error (List (String × α))
  | [] => .ok []
  | .fault read _ :: _ => .error (.text read)
  | .field key j :: es => do
    let x ← value reading j
    let rest ← dictionaryEntries value reading es
    return if rest.any (·.1 == key) then rest else (key, x) :: rest

/-- A dictionary, in the order of its keys. -/
def dictionary (value : Decoder α) : Decoder (List (String × α)) := fun reading j =>
  match j.plain with
  | .object entries =>
    (dictionaryEntries value reading entries).map (·.mergeSort fun a b => !decide (b.1 < a.1))
  | j => .error (mismatch j "a map")

end Decoder

/-! ## Records -/

/-- What the entries of an object give for some fields: where the first thing wrong with their
    values stands, and otherwise their values, or the name of the first field without one. -/
structure Fill (α : Type) where
  trouble : Option (Nat × Error)
  value : Except String α

def firstTrouble : Option (Nat × Error) → Option (Nat × Error) → Option (Nat × Error)
  | some a, some b => if b.1 < a.1 then some b else some a
  | some a, none => some a
  | none, b => b

/-- A decoder of named fields, in order. `fill` reads them from the entries of an object, and
    `take` from the items of an array, which it counts. -/
structure Record (α : Type) where
  names : List String
  fill : Reading → List Entry → Fill α
  take : Reading → String → Nat × List Json → Except Error (α × Nat × List Json)

namespace Record

variable {α β : Type}

def find? (key : String) (place : Nat) : List Entry → Option (Nat × Json)
  | [] => none
  | .field k j :: es => if k = key then some (place, j) else find? key (place + 1) es
  | .fault _ _ :: es => find? key (place + 1) es

/-- A field; without a value for it, it takes the default, if it has one. -/
def field (name : String) (default : Option α) (value : Decoder α) : Record α where
  names := [name]
  fill := fun reading entries =>
    match find? name 0 entries with
    | none => ⟨none, match default with | some x => .ok x | none => .error name⟩
    | some (place, j) =>
      match value reading j with
      | .ok x => ⟨none, .ok x⟩
      | .error e => ⟨some (place, e), .error name⟩
  take := fun reading expected (count, items) =>
    match items with
    | [] =>
      match default with
      | some x => .ok (x, count, [])
      | none => .error (.invalidLength count expected)
    | j :: items => do
      let x ← value reading j
      return (x, count + 1, items)

def required (name : String) (value : Decoder α) : Record α :=
  field name none value

def optional (name : String) (default : α) (value : Decoder α) : Record α :=
  field name (some default) value

/-- Both results, or the first name of a field without a value. -/
def applyValue (f : Except String (α → β)) (x : Except String α) : Except String β :=
  match f, x with
  | .ok f, .ok x => .ok (f x)
  | .error name, _ => .error name
  | .ok _, .error name => .error name

def seq (f : Record (α → β)) (x : Record α) : Record β where
  names := f.names ++ x.names
  fill := fun reading entries =>
    let first := f.fill reading entries
    let second := x.fill reading entries
    ⟨firstTrouble first.trouble second.trouble, applyValue first.value second.value⟩
  take := fun reading expected state => do
    let (g, state) ← f.take reading expected state
    let (a, state) ← x.take reading expected state
    return (g a, state)

def pure (x : α) : Record α where
  names := []
  fill := fun _ _ => ⟨none, .ok x⟩
  take := fun _ _ state => .ok (x, state)

instance : Pure Record where
  pure := Record.pure

instance : Seq Record where
  seq f x := Record.seq f (x ())

instance : Functor Record where
  map f x := Record.seq (Record.pure f) x

/-- The first thing wrong with the entries themselves: a fault, a known field that comes twice, or
    an unknown one whose value cannot be put aside as `aside` does it. -/
def entryTrouble (aside : Json → Option Fault) (names : List String) (seen : List String)
    (place : Nat) : List Entry → Option (Nat × Error)
  | [] => none
  | .fault read _ :: _ => some (place, .text read)
  | .field key j :: es =>
    if names.contains key then
      if seen.contains key then some (place, .duplicateField key)
      else entryTrouble aside names (key :: seen) (place + 1) es
    else
      match aside j with
      | some f => some (place, .text f)
      | none => entryTrouble aside names seen (place + 1) es

/-- The record that the entries of an object hold, with the others put aside. -/
def ofEntriesAside (aside : Json → Option Fault) (record : Record α) (reading : Reading)
    (entries : List Entry) : Except Error α :=
  let fill := record.fill reading entries
  match firstTrouble fill.trouble (entryTrouble aside record.names [] 0 entries) with
  | some (_, e) => .error e
  | none => fill.value.mapError .missingField

/-- The record that the entries of an object hold; unknown ones are passed over. -/
def ofEntries (record : Record α) (reading : Reading) (entries : List Entry) : Except Error α :=
  record.ofEntriesAside skipFault? reading entries

def otherEntries (record : Record α) (entries : List Entry) : List Entry :=
  entries.filter fun
    | .field key _ => !record.names.contains key
    | .fault _ _ => false

def showElements (n : Nat) : String :=
  toString n ++ (if n = 1 then " element" else " elements")

def ofItems (record : Record α) (expected : String) (reading : Reading) (items : List Json) :
    Except Error α := do
  let (x, count, rest) ←
    record.take reading (expected ++ " with " ++ showElements record.names.length) (0, items)
  match rest, reading with
  | [], _ => return x
  | .fault read _ :: _, _ => .error (.text read)
  | _, .direct => .error (.text .malformed)
  | _, .held => .error (.invalidLength items.length (showElements count ++ " in sequence"))

/-- A record, which messages call `expected`. What is left out while the text is read has no
    fields. -/
def decoder (record : Record α) (expected : String) : Decoder α := fun reading j =>
  if reading = .direct ∧ j.isAbsent then record.ofEntries reading []
  else
    match j.plain with
    | .object entries => record.ofEntries reading entries
    | .array items => record.ofItems expected reading items
    | j => .error (mismatch j expected)

/-- The record of a variant; once its value is held, messages call it by its general name. -/
def variant (record : Record α) (expected : String) : Decoder α := fun reading j =>
  match reading, j.plain with
  | .held, .object _ | .held, .array _ | .direct, _ => record.decoder expected reading j
  | .held, j => .error (mismatch j "struct variant")

end Record

/-! ## Variants -/

namespace Decoder

variable {α : Type}

def variantNamed (variants : List (String × α)) (name : String) : Except Error α :=
  match variants.lookup name with
  | some x => .ok x
  | none => .error (.unknownVariant name (variants.map (·.1)))

/-- One of the variants by its name alone. It may also be written as an object with the name as key
    of a null. -/
def choice (variants : List (String × α)) : Decoder α := fun reading j =>
  match reading, j with
  | _, .string name => variantNamed variants name
  | .direct, .scalar written _ => variantNamed variants written
  | .direct, .object (.field name j :: rest) => do
    let x ← variantNamed variants name
    match j, rest with
    | .null, [] => return x
    | .null, .fault read _ :: _ => .error (.text read)
    | .null, _ => .error (.text .malformed)
    | j, _ => .error (mismatch j "unit")
  | .direct, .object (.fault read _ :: _) => .error (.text read)
  | .direct, .fault read _ => .error (.text read)
  | .direct, _ => .error (.text .malformed)
  | .held, .object [.field name j] => do
    let x ← variantNamed variants name
    match j.plain with
    | .null => return x
    | .object [] => return x
    | j => .error (mismatch j "unit")
  | .held, .object _ => .error (.invalidValue .map "map with a single key")
  | .held, j => .error (mismatch j.plain "string or map")

/-- A variant with its content, as an object with the variant as its one key. `content` lists the
    variants, each with what a lone name of it is taken for. -/
def alternative (variants : List (String × String × Decoder α)) : Decoder α := fun reading j =>
  let lone (name : String) : Except Error α := do
    let (kind, _) ← variantNamed variants name
    .error (.invalidType .unit kind)
  match reading, j with
  | _, .string name => lone name
  | .direct, .scalar written _ => lone written
  | .direct, .object (.field name j :: rest) => do
    let (_, content) ← variantNamed variants name
    let x ← content reading j
    match rest with
    | [] => return x
    | .fault read _ :: _ => .error (.text read)
    | _ => .error (.text .malformed)
  | .direct, .object (.fault read _ :: _) => .error (.text read)
  | .direct, .fault read _ => .error (.text read)
  | .direct, _ => .error (.text .malformed)
  | .held, .object [.field name j] => do
    let (_, content) ← variantNamed variants name
    content reading j
  | .held, .object _ => .error (.invalidValue .map "map with a single key")
  | .held, j => .error (mismatch j.plain "string or map")

/-- The variant that a tag names. Once the value is held, the tag may also be its number. -/
def tag (variants : List (String × α)) : Decoder α := fun reading j =>
  match reading, j with
  | _, .string name => variantNamed variants name
  | .direct, .scalar written _ => variantNamed variants written
  | .held, .integer n =>
    if 0 ≤ n then
      match variants[n.toNat]? with
      | some (_, x) => .ok x
      | none =>
        .error (.invalidValue (.integer n) ("variant index 0 <= i < " ++ toString variants.length))
    else .error (.invalidType (.integer n) "variant identifier")
  | _, j => .error (mismatch j.plain "variant identifier")

/-- The tag of an object and its other entries, which are held. -/
def splitTag (tagName : String) (variants : List (String × α)) (reading : Reading) :
    Option α → List Entry → Except Error (Option α × List Entry)
  | found, [] => .ok (found, [])
  | _, .fault read _ :: _ => .error (.text read)
  | found, .field key j :: es =>
    if key = tagName then
      match found with
      | some _ => .error (.duplicateField tagName)
      | none => do
        let x ← tag variants reading j
        splitTag tagName variants reading (some x) es
    else do
      let j ← hold j
      let (x, rest) ← splitTag tagName variants reading found es
      return (x, .field key j :: rest)

def holdItems : List Json → Except Error (List Json)
  | [] => .ok []
  | j :: js => do
    let j ← hold j
    let js ← holdItems js
    return j :: js

/-- A variant with its content, the variant named in the field `tagName`. As an array it has the tag
    in front. -/
def tagged (name tagName : String) (variants : List (String × Decoder α)) : Decoder α :=
  fun reading j =>
    match j.plain with
    | .object entries => do
      match ← splitTag tagName variants reading none entries with
      | (some content, rest) => content .held (.object rest)
      | (none, _) => .error (.missingField tagName)
    | .array (j :: items) => do
      let content ← tag variants reading j
      let items ← holdItems items
      content .held (.array items)
    | .array [] => .error (.missingField tagName)
    | j => .error (mismatch j ("internally tagged enum " ++ name))

/-! ## Values within values of their own kind -/

/-- The decoder that `step` makes of itself, to the depth `fuel`. -/
def iterate (step : Decoder α → Decoder α) : Nat → Decoder α
  | 0 => fun _ _ => .error (.text .malformed)
  | fuel + 1 => step (iterate step fuel)

/-- The decoder that `step` makes of itself: a value contains no more than its depth of others. -/
def fix (step : Decoder α → Decoder α) : Decoder α := fun reading j =>
  iterate step (j.depth + 1) reading j

end Decoder

/-- The value of a document, if its text ends there. -/
def Document.decode {α : Type} (d : Document) (value : Decoder α) : Except Error α := do
  let x ← value .direct d.value
  match d.rest with
  | some f => .error (.text f)
  | none => return x

end Typings.Json
