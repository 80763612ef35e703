import GraphCalc.Command.Options
import GraphCalc.Command.Version
import GraphCalc.Compile.Source
import GraphCalc.Files.World
import GraphCalc.Output.Outline

/-!
# Runs of the command

A run reads the globals file, then the input, and writes the formulas of the
whole input or nothing: to the output file, or to standard output if none is
named.  It can be carried out by any host.  On a simulated one, it is a function
of its arguments and the file tree.  How arguments and globals documents are read
is left open as well.
-/

namespace GraphCalc

open Text (Bytes utf8)

namespace Command

/-- The ways to read the arguments of a run and the declarations in a globals
file. -/
structure Readers where
  request : List String → Options.Request
  declarations : Bytes → Except Globals.DocumentError (List Declaration)

/-- The readers of the command. -/
def Readers.standard : Readers :=
  ⟨Options.request, Globals.declarationsOfBytes⟩

/-- The text of a log. -/
def logText (options : Options) (messages : List String) : String :=
  if options.debug then
    String.join (messages.map fun message => "graphtex: " ++ message ++ "\n")
  else
    ""

/-- The types in a globals file; no path means no file and no globals. -/
def loadGlobals (readers : Readers) (path : String) (content : Except FileError Bytes) :
    Except Failure (NameMap ValueType) :=
  if path = "" then
    .ok ∅
  else
    match content with
    | .error error => .error (.during "could not read globals file" (.file error))
    | .ok bytes =>
        match readers.declarations bytes with
        | .error error => .error (.during path (.document error))
        | .ok declarations =>
            match Declaration.resolve declarations with
            | .error unknown => .error (.undeclarable unknown)
            | .ok types => .ok types.named

/-- What compiling an input gives: what is shown on the way, and the text of
all formulas with their number, or a failure. -/
structure Built where
  shown : String
  result : Except Failure (Bytes × Nat)

/-- Compile an input. -/
def compileInput (options : Options) (globals : NameMap ValueType)
    (content : Except FileError Bytes) : Built :=
  match content with
  | .error error => ⟨"", .error (.during "could not read input" (.file error))⟩
  | .ok bytes =>
      let compiled := compileText globals options.input (Text.decode bytes)
      let log := logText options (compiled.notes.map Note.message)
      match compiled.failure with
      | some failure => ⟨log, .error failure⟩
      | none =>
          let dump := if options.dump then Formula.outlineText compiled.formulas else ""
          match Formula.latexLines compiled.formulas with
          | .error fault => ⟨log ++ dump, .error (.unrenderable fault)⟩
          | .ok text => ⟨log ++ dump, .ok (text, compiled.formulas.length)⟩

/-- The line that is logged when an output file has been written. -/
def writtenText (options : Options) (count : Nat) : String :=
  logText options
    ["wrote " ++ toString count ++ " statement(s) to " ++ options.output]

/-- The line that is logged when a watched input has changed. -/
def changedText (options : Options) : String :=
  logText options [options.input ++ " changed, recompiling"]

/-- What is shown of a failure. -/
def failureText (failure : Failure) : String :=
  failure.text ++ "\n"

/-- The failure to watch a path, given what was found there.  At a path that
nothing can have there is nothing to watch, which is no failure. -/
def watchFailure? {α : Type} (watched : String) : Except FileProblem α → Option Failure
  | .ok _ | .error .invalidPath => none
  | .error problem => some (.during ("could not watch " ++ watched) (.place problem))

/-- The directory that is watched for changes of an input. -/
def watchedPath (directory input : String) : String :=
  Path.parent (Path.absolute directory input)

/-- The text of the version, on lines of its own. -/
def versionText : String :=
  Version.current.text ++ "\n"

/-- The description, the version, the usage line and the help. -/
def helpText : String :=
  "graphtex compiles math source into graphing calculator LaTeX\n" ++ versionText ++
    Options.usage ++ Options.help

/-- The version, the usage line and what is wrong with the arguments. -/
def refusalText (error : Options.Error) : String :=
  versionText ++ Options.usage ++ "error: " ++ error.message ++ "\n"

/-! ## Runs on any host -/

section

variable {m : Type → Type} [Monad m]

/-- Compile the input and write the formulas. -/
def build (host : Host m) (options : Options) (globals : NameMap ValueType) :
    ExceptT Failure m Unit := do
  let built := compileInput options globals (← host.read options.input)
  host.report built.shown
  let (text, count) ← ExceptT.mk (pure built.result)
  if options.output = "" then
    host.print text
  else
    host.writeOutput options.output text
    host.report (writtenText options count)

/-- Do something, show its failure if there is one, and give the exit status. -/
def report (host : Host m) (action : ExceptT Failure m Unit) : m Nat := do
  match ← action.run with
  | .ok () => return 0
  | .error failure =>
      host.report (failureText failure)
      return failure.exitStatus

/-- Build once, and again whenever the input changes.  Failures of the builds are
shown, but are no failures of the run. -/
def watch (host : Host m) (options : Options) (globals : NameMap ValueType) :
    ExceptT Failure m Unit := do
  let watched := watchedPath (← host.directory) options.input
  if let some failure := watchFailure? watched (← host.find watched) then
    throw failure
  let buildOnce := discard (report host (build host options globals))
  host.watching options.input buildOnce do
    host.report (changedText options)
    buildOnce

/-- Run the command, and give the exit status. -/
def execute (readers : Readers) (host : Host m) (arguments : List String) : m Nat :=
  match readers.request arguments with
  | .help => do
      discard (host.print (utf8 helpText)).run
      return 0
  | .version => do
      discard (host.print (utf8 versionText)).run
      return 0
  | .refused error => do
      host.report (refusalText error)
      return 1
  | .build options => do
      let content ← if options.globals = "" then pure (.ok []) else host.read options.globals
      report host do
        let globals ← ExceptT.mk (pure (loadGlobals readers options.globals content))
        if options.watch then watch host options globals else build host options globals

end

/-! ## Simulated runs -/

/-- What a run leaves behind. -/
structure Outcome where
  status : Nat
  stdout : Bytes
  stderr : String
  tree : FileTree

/-- Run the command on a file tree. -/
def simulate (readers : Readers) (behavior : Behavior) (tree : FileTree)
    (arguments : List String) : Outcome :=
  let (status, world) := (execute readers behavior.host arguments).run ⟨tree, [], ""⟩
  ⟨status, world.stdout, world.stderr, world.tree⟩

/-- Run the command on a file tree whose host refuses nothing, given suffixes for
the names of temporary files. -/
def run (suffix : Nat → String) (tree : FileTree) (arguments : List String) : Outcome :=
  simulate .standard (.willing suffix) tree arguments

end Command

end GraphCalc
