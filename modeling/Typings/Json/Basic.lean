/-! # JSON values

The values of JSON documents. A value read from a text also keeps the places where the text could
not be read, so that whoever walks the value from left to right meets a fault exactly where a
reader of the text would.

* `Json.Fault`: how a text goes wrong.
* `Json`, `Json.Entry`: values, and the entries of objects in the order of the text.
* `Json.readFault?`, `Json.skipFault?`: the first fault met when a value is read in full, or
  skipped.
* `Json.settled`: a value without bare scalars.
* `Json.Document`: a whole text.
* `Json.limit`: a value whose deeper parts may only be skipped.
* `Json.sorted`: a value whose objects are dictionaries.
-/

namespace Typings

/-- How a text goes wrong: it breaks the grammar, or it ends inside a value. -/
inductive Json.Fault where
  | malformed
  | unfinished
  deriving DecidableEq, Repr

mutual

inductive Json where
  | null
  | bool (value : Bool)
  /-- A number written without fraction and exponent that fits 64 bits. -/
  | integer (value : Int)
  /-- Any other number, by its shortest decimal form. -/
  | decimal (shown : String)
  | string (text : String)
  /-- A bare scalar: it stands for `value`, and for `written` where a text is asked for. -/
  | scalar (written : String) (value : Json)
  | array (items : List Json)
  | object (entries : List Json.Entry)
  /-- A place without a readable value: `read` is the fault of reading it, and `skip` the fault of
      skipping it, if that fails too. -/
  | fault (read : Json.Fault) (skip : Option Json.Fault)

/-- An entry of an object, or the place where there should be one. -/
inductive Json.Entry where
  | field (key : String) (value : Json)
  | fault (read : Json.Fault) (skip : Option Json.Fault)

end

namespace Json

/-- A text read as one value, and the fault of what follows it, if anything does. -/
structure Document where
  value : Json
  rest : Option Fault := none

/-! ## Faults inside a value -/

mutual

/-- The first fault that reading the whole value meets. -/
def readFault? : Json → Option Fault
  | .scalar _ j => j.readFault?
  | .array items => readFaultItems? items
  | .object entries => readFaultEntries? entries
  | .fault read _ => some read
  | _ => none

def readFaultItems? : List Json → Option Fault
  | [] => none
  | j :: js => j.readFault?.or (readFaultItems? js)

def readFaultEntries? : List Entry → Option Fault
  | [] => none
  | e :: es => e.readFault?.or (readFaultEntries? es)

def Entry.readFault? : Entry → Option Fault
  | .field _ j => j.readFault?
  | .fault read _ => some read

end

mutual

/-- The first fault that skipping the whole value meets. -/
def skipFault? : Json → Option Fault
  | .array items => skipFaultItems? items
  | .object entries => skipFaultEntries? entries
  | .fault _ skip => skip
  | _ => none

def skipFaultItems? : List Json → Option Fault
  | [] => none
  | j :: js => j.skipFault?.or (skipFaultItems? js)

def skipFaultEntries? : List Entry → Option Fault
  | [] => none
  | e :: es => e.skipFault?.or (skipFaultEntries? es)

def Entry.skipFault? : Entry → Option Fault
  | .field _ j => j.skipFault?
  | .fault _ skip => skip

end

/-! ## Bare scalars -/

mutual

/-- The value with every bare scalar in it replaced by what it stands for. -/
def settled : Json → Json
  | .array items => .array (settledItems items)
  | .object entries => .object (settledEntries entries)
  | .scalar _ j => j.settled
  | j => j

def settledItems : List Json → List Json
  | [] => []
  | j :: js => j.settled :: settledItems js

def settledEntries : List Entry → List Entry
  | [] => []
  | e :: es => e.settled :: settledEntries es

def Entry.settled : Entry → Entry
  | .field key j => .field key j.settled
  | .fault read skip => .fault read skip

end

/-! ## Depth -/

mutual

/-- The value with every array and object below `depth` enclosing ones closed to readers: they can
    only be skipped. -/
def limit (depth : Nat) : Json → Json
  | .array items =>
    match depth with
    | 0 => .fault .malformed (skipFaultItems? items)
    | depth + 1 => .array (limitItems depth items)
  | .object entries =>
    match depth with
    | 0 => .fault .malformed (skipFaultEntries? entries)
    | depth + 1 => .object (limitEntries depth entries)
  | j => j

def limitItems (depth : Nat) : List Json → List Json
  | [] => []
  | j :: js => limit depth j :: limitItems depth js

def limitEntries (depth : Nat) : List Entry → List Entry
  | [] => []
  | e :: es => e.limit depth :: limitEntries depth es

def Entry.limit (depth : Nat) : Entry → Entry
  | .field key j => .field key (Json.limit depth j)
  | .fault read skip => .fault read skip

end

mutual

/-- The number of arrays and objects around the innermost value. -/
def depth : Json → Nat
  | .array items => depthItems items + 1
  | .object entries => depthEntries entries + 1
  | .scalar _ j => j.depth
  | _ => 0

def depthItems : List Json → Nat
  | [] => 0
  | j :: js => max j.depth (depthItems js)

def depthEntries : List Entry → Nat
  | [] => 0
  | e :: es => max e.depth (depthEntries es)

def Entry.depth : Entry → Nat
  | .field _ j => j.depth
  | .fault _ _ => 0

end

/-! ## Dictionaries -/

/-- The entries with one more entry in its place by key; a key that was there gets the new value. -/
def insertEntry (key : String) (value : Json) : List Entry → List Entry
  | [] => [.field key value]
  | .field k v :: es =>
    if key = k then .field key value :: es
    else if key < k then .field key value :: .field k v :: es
    else .field k v :: insertEntry key value es
  | e :: es => e :: insertEntry key value es

mutual

/-- The value with the entries of each object ordered by key; of entries with one key the last one
    stays. -/
def sorted : Json → Json
  | .array items => .array (sortedItems items)
  | .object entries => .object (sortedEntries [] entries)
  | .scalar _ j => j.sorted
  | j => j

def sortedItems : List Json → List Json
  | [] => []
  | j :: js => j.sorted :: sortedItems js

/-- The entries so far, which are in order, together with the sorted rest. -/
def sortedEntries (done : List Entry) : List Entry → List Entry
  | [] => done
  | e :: es => sortedEntries (e.insertInto done) es

/-- The entries with one more, whose value is sorted, in its place. -/
def Entry.insertInto (done : List Entry) : Entry → List Entry
  | .field key j => insertEntry key j.sorted done
  | .fault read skip => done ++ [.fault read skip]

end

/-! ## Entries -/

def optionalEntry (key : String) (value : Option Json) : List Entry :=
  match value with
  | some j => [.field key j]
  | none => []

def listEntry (key : String) (items : List Json) : List Entry :=
  match items with
  | [] => []
  | items => [.field key (.array items)]

def strings (texts : List String) : Json :=
  .array (texts.map .string)

/-- The value under a key: that of its first entry. -/
def lookup? (key : String) : List Entry → Option Json
  | [] => none
  | .field k v :: es => if k = key then some v else lookup? key es
  | .fault _ _ :: es => lookup? key es

end Json

end Typings
