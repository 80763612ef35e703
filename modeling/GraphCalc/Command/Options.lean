import GraphCalc.Text.Quoted

/-!
# Command-line options

Arguments are read from left to right.  One dash works as two.  The value of an
option stands behind an equality sign or in the next argument; an empty value
behind an equality sign counts as none.  Behind two dashes alone every argument
is positional, except that two dashes alone never count.  A request for help wins
over whatever else is wrong or asked for.
-/

namespace GraphCalc

/-- What a run is asked to do with which files. -/
structure Options where
  input : String
  globals : String
  output : String
  dump : Bool
  debug : Bool
  watch : Bool
deriving DecidableEq, Repr

namespace Options

/-- What is wrong with the arguments. -/
inductive Error
  | unknown (argument : String)
  | missingValue (argument : String)
  | badSwitch (argument value : String)
  | tooMany (argument : String)
  | noInput
deriving DecidableEq, Repr

/-- The wording of an error. -/
def Error.message : Error → String
  | unknown argument => "unknown argument " ++ argument
  | missingValue argument => "missing value for " ++ argument
  | badSwitch argument value =>
      "error processing " ++ argument ++ ": strconv.ParseBool: parsing " ++
        Text.quote value ++ ": invalid syntax"
  | tooMany argument => "too many positional arguments at '" ++ argument ++ "'"
  | noInput => "input is required"

/-- What the arguments ask for. -/
inductive Request
  | help
  | version
  | refused (error : Error)
  | build (options : Options)
deriving DecidableEq, Repr

/-- The options that take a value. -/
inductive Setting
  | globals
  | output
deriving DecidableEq, Repr

/-- The options that are on or off. -/
inductive Switch
  | dump
  | debug
  | watch
deriving DecidableEq, Repr

/-- Give an option that takes a value. -/
def set (options : Options) (setting : Setting) (value : String) : Options :=
  match setting with
  | .globals => { options with globals := value }
  | .output => { options with output := value }

/-- Turn an option on or off. -/
def turn (options : Options) (switch : Switch) (value : Bool) : Options :=
  match switch with
  | .dump => { options with dump := value }
  | .debug => { options with debug := value }
  | .watch => { options with watch := value }

/-- The option with a name. -/
def named? : String → Option (Setting ⊕ Switch)
  | "globals" => some (.inl .globals)
  | "output" => some (.inl .output)
  | "o" => some (.inl .output)
  | "dump" => some (.inr .dump)
  | "debug" => some (.inr .debug)
  | "watch" => some (.inr .watch)
  | _ => none

/-- Whether an argument is an option: it starts with a dash and does not
consist of dashes alone. -/
def isOption (argument : String) : Bool :=
  argument.toList.head? = some '-' && argument.toList.any (· ≠ '-')

/-- The name of an option and the value behind its equality sign. -/
def nameAndValue (argument : String) : String × String :=
  let body := argument.toList.dropWhile (· = '-')
  (String.ofList (body.takeWhile (· ≠ '=')),
    String.ofList ((body.dropWhile (· ≠ '=')).drop 1))

/-- The truth value a text stands for. -/
def switchValue? (text : String) : Option Bool :=
  if ["1", "t", "T", "true", "TRUE", "True"].contains text then some true
  else if ["0", "f", "F", "false", "FALSE", "False"].contains text then some false
  else none

/-- The first positional argument is the input, and there is no second one. -/
def settle (options : Options) : List String → Request
  | [] => .refused .noInput
  | [input] => .build { options with input := input }
  | _ :: second :: _ => .refused (.tooMany second)

/-- Read arguments in turn, given the options and the positional arguments so
far. -/
def read (options : Options) (positional : List String) : List String → Request
  | [] => settle options positional
  | argument :: rest =>
      if argument = "--" then
        settle options (positional ++ rest.filter (· ≠ "--"))
      else if !isOption argument then
        read options (positional ++ [argument]) rest
      else if argument = "-h" || argument = "--help" then
        .help
      else if argument = "--version" then
        .version
      else
        let (name, value) := nameAndValue argument
        match named? name with
        | none => .refused (.unknown argument)
        | some (.inr switch) =>
            match switchValue? (if value = "" then "true" else value) with
            | some on => read (options.turn switch on) positional rest
            | none => .refused (.badSwitch argument value)
        | some (.inl setting) =>
            if value = "" then
              match rest with
              | [] => .refused (.missingValue argument)
              | next :: others =>
                  if isOption next then
                    .refused (.missingValue argument)
                  else
                    read (options.set setting next) positional others
            else
              read (options.set setting value) positional rest

/-- Whether help is asked for before two dashes alone. -/
def asksHelp (arguments : List String) : Bool :=
  (arguments.takeWhile (· ≠ "--")).any fun argument =>
    argument = "-h" || argument = "--help"

/-- What the arguments of a run ask for. -/
def request (arguments : List String) : Request :=
  match read ⟨"", "", "", false, false, false⟩ [] arguments with
  | .build options => .build options
  | other => if asksHelp arguments then .help else other

/-- The line that shows how the command is used. -/
def usage : String :=
  "Usage: graphtex [--globals GLOBALS] [--output OUTPUT] [--dump] [--debug] [--watch] INPUT\n"

/-- What the help says about the arguments. -/
def help : String :=
  "
Positional arguments:
  INPUT                  source file to compile

Options:
  --globals GLOBALS      yaml file declaring global variables and their types
  --output OUTPUT, -o OUTPUT
                         write the LaTeX to this file instead of stdout
  --dump                 print the output tree to stderr
  --debug                log compiler decisions to stderr
  --watch                recompile whenever the input file is written
  --help, -h             display this help and exit
  --version              display version and exit
"

end Options

end GraphCalc
