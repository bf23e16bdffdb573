import Typings.Command.Basic
import Typings.Generation
import Typings.Sources

/-! # Running commands

A command loads its inputs, computes, and only then writes. So nothing is written when an input
cannot be loaded or the synthesis fails.

* `Command.run`: runs a command; an error is the text of a message.
* `runProgram`: runs a command line and tells the exit code.
-/

namespace Typings

section
variable {m : Type → Type} [Monad m] [FileAccess m]

/-- Loads what a file holds; a failure names the file. -/
def loadNamed {α : Type} (what path : String) (load : ExceptT LoadError m α) :
    ExceptT String m α :=
  load.adapt fun e => "Failed to load " ++ what ++ " '" ++ path ++ "': " ++ e.message

def loadSchema (path : String) : ExceptT String m Schema.Document :=
  loadNamed "schema" path (Schema.Document.loadFile path)

/-- Loads the settings; without a file they are the standard ones. -/
def loadConfig (yaml : YamlReader) (path : Option String) : ExceptT String m Config :=
  match path with
  | some path => loadNamed "config" path (Config.loadFile path yaml)
  | none => return {}

/-- What a path is as a source of overrides. -/
def sourceAt (path : String) : m OverrideSource := do
  return if ← FileAccess.isDirectory path then .directory path else .file path

/-- Loads the overrides of a path, or of the first path that can be loaded. -/
def loadOverrides (yaml : YamlReader) (paths : List String) : ExceptT String m OverrideStore := do
  match paths with
  | [] => return .empty
  | [path] =>
    let isDirectory ← FileAccess.isDirectory path
    loadNamed "overrides" path
      (if isDirectory then OverrideStore.loadDirectory path yaml
        else OverrideStore.loadFile path yaml)
  | paths =>
    let sources ← paths.mapM fun path => ExceptT.lift (sourceAt path)
    (OverrideStore.loadFirst sources yaml).adapt LoadError.message

def writeNamed (path text : String) : ExceptT String m Unit := do
  match ← writeText path text with
  | .ok () => return ()
  | .error e => throw e.message

variable [Console m]

def showSummary (summary : List (String × Nat)) : String :=
  ", ".intercalate (summary.map fun (code, count) => toString count ++ " " ++ code)

/-- Writes what a run has made: the declarations, and the report if one is asked for. -/
def writeGeneration (options : GenerateOptions) (run : Generation) : ExceptT String m Unit := do
  let text := formatDeclarations options.format run.declarations
  match options.output with
  | some path =>
    writeNamed path text
    Console.print
      ("Wrote " ++ toString run.declarations.length ++ " declaration(s) to '" ++ path ++ "'.\n")
  | none => Console.print text
  match options.report with
  | some path => writeNamed path (run.report.format options.reportFormat)
  | none => return ()

def tellAdvisories (options : GenerateOptions) (report : Report) : ExceptT String m Unit := do
  if report.advisories.isEmpty then return ()
  else
    Console.printError
      (toString report.advisories.length ++ " advisory diagnostic(s): "
        ++ showSummary report.advisorySummary ++ "\n")
    if options.denyAdvisories then throw "advisory diagnostics denied by --deny-advisories"

def loadGeneration (yaml : YamlReader) (inputs : Inputs) : ExceptT String m Generation := do
  let document ← loadSchema inputs.schema
  let overrides ← loadOverrides yaml inputs.overrides
  let config ← loadConfig yaml inputs.config
  MonadExcept.ofExcept ((generate document overrides config).mapError SynthesisError.message)

def runGenerate (yaml : YamlReader) (options : GenerateOptions) : ExceptT String m Unit := do
  let run ← loadGeneration yaml options.inputs
  writeGeneration options run
  tellAdvisories options run.report

def validationText (document : Schema.Document) (overrides : OverrideStore) : String :=
  let count (n : Nat) (what : String) := toString n ++ " " ++ what
  "Validated schema for API " ++ Report.versionText document.applicationVersion ++ ": "
    ++ ", ".intercalate
      [count document.builtinTypes.length "builtin(s)", count document.classes.length "class(es)",
        count document.concepts.length "concept(s)", count document.events.length "event(s)",
        count document.defines.length "constants root(s)",
        count document.globalObjects.length "global(s)"]
    ++ "; " ++ count overrides.size "override(s)" ++ ".\n"

def runValidate (yaml : YamlReader) (inputs : Inputs) : ExceptT String m Unit := do
  let document ← loadSchema inputs.schema
  let overrides ← loadOverrides yaml inputs.overrides
  let _ ← loadConfig (m := m) yaml inputs.config
  Console.print (validationText document overrides)

/-- The references with their addresses, one to a line. -/
def referenceText (ctx : Context) (references : List String) : String :=
  String.join (references.map fun reference =>
    reference ++ "\t" ++ (ctx.lookup? reference).getD ctx.config.docBaseUrl ++ "\n")

/-- Prints the addresses of references. One that does not resolve is an error in the end. -/
def runResolveLink (yaml : YamlReader) (schema : String) (config : Option String)
    (references : List String) : ExceptT String m Unit := do
  let document ← loadSchema schema
  let config ← loadConfig yaml config
  let ctx := Context.of document .empty config
  Console.print (referenceText ctx references)
  let unresolved := references.filter fun reference => (ctx.lookup? reference).isNone
  if unresolved.isEmpty then return ()
  else throw (toString unresolved.length ++ " reference(s) did not resolve")

def Command.run (yaml : YamlReader) (command : Command) : ExceptT String m Unit :=
  match command with
  | .generate options => runGenerate yaml options
  | .validate inputs => runValidate yaml inputs
  | .resolveLink schema config references => runResolveLink yaml schema config references

/-! ## The program -/

def versionLine : String :=
  "api-decl 0.1.0\n"

def usageText : String :=
  "Usage:\n"
    ++ "  api-decl [-v] generate --schema FILE [--overrides PATH]... [--config FILE]\n"
    ++ "           [--output FILE] [--format declarations|json|yaml]\n"
    ++ "           [--report FILE] [--report-format declarations|json|yaml]\n"
    ++ "           [--deny-advisories]\n"
    ++ "  api-decl [-v] validate --schema FILE [--overrides PATH]... [--config FILE]\n"
    ++ "  api-decl [-v] resolve-link --schema FILE [--config FILE] REFERENCE...\n"
    ++ "  api-decl --version\n"

/-- Runs a command line and tells the exit code: 1 for an error, and 2 for words that are none of a
    command line. -/
def runProgram (words : List String) (yaml : YamlReader := .standard) : m Nat := do
  match Command.parse words with
  | .error .usage =>
    Console.printError usageText
    return 2
  | .error .help =>
    Console.print usageText
    return 0
  | .error .version =>
    Console.print versionLine
    return 0
  | .ok command =>
    match ← (command.run yaml).run with
    | .ok () => return 0
    | .error message =>
      Console.printError ("error: " ++ message ++ "\n")
      return 1

end

end Typings
