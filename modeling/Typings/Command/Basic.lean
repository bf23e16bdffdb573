import Typings.Command.Arguments
import Typings.Format

/-! # Commands

What the program can be told to do.

* `Inputs`: the files that a run reads.
* `Command`: generating declarations, checking the inputs, and resolving references.
* `Command.parse`: the command that a line gives.
-/

namespace Typings

structure Inputs where
  schema : String
  /-- Files or directories. Of several, the first one that can be loaded counts. -/
  overrides : List String := []
  config : Option String := none
  deriving DecidableEq, Repr

/-- What the generation of declarations is told. -/
structure GenerateOptions where
  inputs : Inputs
  /-- The file for the declarations, if they are not for the output stream. -/
  output : Option String := none
  format : OutputFormat := .declarations
  /-- The file for a report. -/
  report : Option String := none
  reportFormat : OutputFormat := .json
  /-- Advisories are an error. -/
  denyAdvisories : Bool := false
  deriving DecidableEq, Repr

/-- What the program can be told to do. -/
inductive Command where
  /-- Generates declarations. -/
  | generate (options : GenerateOptions)
  /-- Loads and checks the inputs. -/
  | validate (inputs : Inputs)
  /-- Prints the addresses of references. -/
  | resolveLink (schema : String) (config : Option String) (references : List String)
  deriving DecidableEq, Repr

namespace Arguments

/-- The paths that the option gives. A path is not empty. -/
def paths (a : Arguments) (name : String) : Except Refusal (List String) :=
  let paths := a.values name
  if paths.contains "" then .error .usage else .ok paths

def path? (a : Arguments) (name : String) : Except Refusal (Option String) :=
  (a.paths name).map List.head?

def path (a : Arguments) (name : String) : Except Refusal String := do
  match ← a.path? name with
  | some path => return path
  | none => .error .usage

/-- The format that the option gives, if it does. -/
def format (a : Arguments) (name : String) (default : OutputFormat) :
    Except Refusal OutputFormat :=
  match a.values name with
  | [] => .ok default
  | text :: _ =>
    match OutputFormat.ofName? text with
    | some format => .ok format
    | none => .error .usage

def inputs (a : Arguments) : Except Refusal Inputs := do
  return { schema := ← a.path "schema", overrides := ← a.paths "overrides",
           config := ← a.path? "config" }

end Arguments

namespace Command

def inputOptions : List (String × Arity) :=
  [("schema", .once), ("overrides", .repeatable), ("config", .once)]

def parseGenerate (words : List String) : Except Refusal Command := do
  let options := inputOptions
    ++ [("output", .once), ("format", .once), ("report", .once), ("report-format", .once),
      ("deny-advisories", .flag)]
  let a ← Grammar.parse { options } words
  return .generate
    { inputs := ← a.inputs
      output := ← a.path? "output"
      format := ← a.format "format" .declarations
      report := ← a.path? "report"
      reportFormat := ← a.format "report-format" .json
      denyAdvisories := a.has "deny-advisories" }

def parseValidate (words : List String) : Except Refusal Command := do
  let a ← Grammar.parse { options := inputOptions } words
  return .validate (← a.inputs)

/-- The references that the words behind the command's name ask for. There has to be one. -/
def parseResolveLink (words : List String) : Except Refusal Command := do
  let options := [("schema", Arity.once), ("config", .once)]
  let a ← Grammar.parse { options, hasOperands := true } words
  let schema ← a.path "schema"
  let config ← a.path? "config"
  if a.operands.isEmpty then .error .usage else return .resolveLink schema config a.operands

def parsers : List (String × (List String → Except Refusal Command)) :=
  [("generate", parseGenerate), ("validate", parseValidate), ("resolve-link", parseResolveLink)]

/-- The command that a word names, told by the words behind it. -/
def parseNamed (name : String) (words : List String) : Except Refusal Command :=
  match parsers.lookup name with
  | some parser => parser words
  | none =>
    if name = "help" ∧ words.all ("help" :: parsers.map (·.1)).contains ∧ words.length ≤ 1 then
      .error .help
    else .error .usage

/-- The command that a line gives. `isVerbose` tells that a word asked for it. -/
def parseFrom (isVerbose : Bool) : List String → Except Refusal Command
  | [] => .error .usage
  | word :: words => do
    match Word.of word with
    | .separator => .error .usage
    | .operand name => parseNamed name words
    | .long "help" none => .error .help
    | .long "version" none => .error .version
    | .long "verbose" none => if isVerbose then .error .usage else parseFrom true words
    | .long _ _ => .error .usage
    | .short letters =>
      let isVerbose ← shortFlags true isVerbose letters
      parseFrom isVerbose words

def parse (words : List String) : Except Refusal Command :=
  parseFrom false words

end Command

end Typings
