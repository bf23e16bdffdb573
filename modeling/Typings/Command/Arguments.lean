/-! # Arguments

The words of a command line: options, with their values behind an equals sign or in the next word,
and operands. Behind two dashes all words are operands.

* `Word`: the forms of a word.
* `Arity`, `Grammar`: which options there are and how often each may be given.
* `Arguments`, `Grammar.parse`: the options and operands of a line.
* `Refusal`: why a line runs nothing.
-/

namespace Typings

/-- Why the words of a command line run nothing: they are wrong, or ask for an explanation. -/
inductive Refusal where
  | usage
  | help
  | version
  deriving DecidableEq, Repr

inductive Word where
  | separator
  | long (name : String) (value : Option String)
  | short (letters : List Char)
  | operand (text : String)
  deriving DecidableEq, Repr

/-- The form of a word. A lone dash is an operand. -/
def Word.of (word : String) : Word :=
  match word.toList with
  | ['-', '-'] => .separator
  | '-' :: '-' :: cs =>
    let name : String := .ofList (cs.takeWhile (· ≠ '='))
    match cs.dropWhile (· ≠ '=') with
    | _ :: value => .long name (some (.ofList value))
    | [] => .long name none
  | '-' :: c :: cs => .short (c :: cs)
  | _ => .operand word

/-- Whether the letters of a short option ask to be verbose; `isVerbose` tells that this was asked
    before. It may be asked once. -/
def shortFlags (hasVersion isVerbose : Bool) : List Char → Except Refusal Bool
  | [] => .ok isVerbose
  | 'v' :: letters =>
    if isVerbose then .error .usage else shortFlags hasVersion true letters
  | 'h' :: _ => .error .help
  | 'V' :: _ => if hasVersion then .error .version else .error .usage
  | _ => .error .usage

/-- How often an option may be given, and whether it takes a value. -/
inductive Arity where
  | flag
  | once
  | repeatable
  deriving DecidableEq, Repr

/-- The options of a command, and whether it has operands. -/
structure Grammar where
  options : List (String × Arity)
  hasOperands : Bool := false

/-- What a line gives, in order; a flag is an option with an empty value. -/
structure Arguments where
  options : List (String × String) := []
  operands : List String := []
  isVerbose : Bool := false

namespace Arguments

def values (a : Arguments) (name : String) : List String :=
  (a.options.filter (·.1 == name)).map (·.2)

def has (a : Arguments) (name : String) : Bool :=
  a.options.any (·.1 == name)

end Arguments

namespace Grammar

def addOption (g : Grammar) (a : Arguments) (name value : String) : Except Refusal Arguments :=
  if g.options.lookup name = some .repeatable ∨ !a.has name then
    .ok { a with options := a.options ++ [(name, value)] }
  else .error .usage

def addOperand (g : Grammar) (a : Arguments) (text : String) : Except Refusal Arguments :=
  if g.hasOperands then .ok { a with operands := a.operands ++ [text] } else .error .usage

def addOperands (g : Grammar) (a : Arguments) : List String → Except Refusal Arguments
  | [] => .ok a
  | text :: texts => do
    let a ← g.addOperand a text
    g.addOperands a texts

def addLong (g : Grammar) (a : Arguments) (name : String) (value : Option String) :
    Except Refusal (Arguments × Option String) :=
  match g.options.lookup name, value with
  | some .flag, none => (g.addOption a name "").map fun a => (a, none)
  | some .flag, some _ => .error .usage
  | some _, some value => (g.addOption a name value).map fun a => (a, none)
  | some _, none => .ok (a, some name)
  | none, none =>
    if name = "help" then .error .help
    else if name = "verbose" ∧ !a.isVerbose then .ok ({ a with isVerbose := true }, none)
    else .error .usage
  | none, some _ => .error .usage

/-- The arguments with those of further words. `waiting` is an option whose value comes next. -/
def parseFrom (g : Grammar) (a : Arguments) (waiting : Option String) :
    List String → Except Refusal Arguments
  | [] => if waiting.isSome then .error .usage else .ok a
  | word :: words => do
    match waiting, Word.of word with
    | some name, .operand value =>
      let a ← g.addOption a name value
      g.parseFrom a none words
    | some _, _ => .error .usage
    | none, .separator => g.addOperands a words
    | none, .operand text =>
      let a ← g.addOperand a text
      g.parseFrom a none words
    | none, .short letters =>
      let isVerbose ← shortFlags false a.isVerbose letters
      g.parseFrom { a with isVerbose } none words
    | none, .long name value =>
      let (a, waiting) ← g.addLong a name value
      g.parseFrom a waiting words

def parse (g : Grammar) (words : List String) : Except Refusal Arguments :=
  g.parseFrom {} none words

end Grammar

end Typings
