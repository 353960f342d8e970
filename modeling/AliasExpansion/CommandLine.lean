-- SUMMARY: The command line: its arguments, and a run over given inputs.
import AliasExpansion.Expansion
import AliasExpansion.Settings.Basic
import AliasExpansion.Text.Lines

/-!
# Command line

The program expands the invocation in a file, or in its standard input, and prints the code. The
arguments are read first; then the settings are put together, from a settings file and from
arguments that override it; then the invocation is expanded. `Main` does the input and output
around these steps.

An option may be shortened to any beginning that no other option has. Its value follows as the
next argument or after an equals sign. Short options can be written together.
-/

namespace AliasExpansion.CommandLine

/-- A seed given as an argument. -/
inductive SeedValue where
  | number (seed : Int)
  /-- A separator in place of a value. It is dropped, which leaves an empty list. -/
  | nothing
deriving DecidableEq, Repr

/-- The key that a seed stands for. -/
def SeedValue.key : SeedValue → String
  | .number seed => toString seed
  | .nothing => "[]"

structure Arguments where
  file : Option String := none
  config : Option String := none
  seed : Option SeedValue := none
  verbose : Bool := false
deriving DecidableEq, Repr

/-- Why the arguments lead to no run. -/
inductive Refusal where
  /-- The help text was asked for. -/
  | help
  | usage
deriving DecidableEq, Repr

def Refusal.code : Refusal → Nat
  | .help => 0
  | .usage => 2

inductive Flag where
  | help
  | config
  | seed
  | verbose
deriving DecidableEq, Repr

-- ---------------------------------------------------------------------------
-- Options
-- ---------------------------------------------------------------------------

def longFlags : List (String × Flag) :=
  [("--help", .help), ("--config", .config), ("--seed", .seed), ("--verbose", .verbose)]

def shortFlag? (c : Char) : Option Flag :=
  match c with
  | 'h' => some .help
  | 'v' => some .verbose
  | _ => none

/-- The long options that `text` may stand for: the one that it is, or all that start with it. -/
def longMatches (text : List Char) : List Flag :=
  match longFlags.find? fun (name, _) => name.toList == text with
  | some (_, flag) => [flag]
  | none => (longFlags.filter fun (name, _) => text.isPrefixOf name.toList).map Prod.snd

/-- Whether what follows a dash makes the argument a negative number, which is no option. A line
    end may stand after the number. -/
def isNegativeNumber (text : List Char) : Bool :=
  let text := if text.getLast? = some '\n' then text.dropLast else text
  let whole := text.takeWhile Text.isDecimal
  match text.drop whole.length with
  | [] => !whole.isEmpty
  | '.' :: fraction => !fraction.isEmpty && fraction.all Text.isDecimal
  | _ => false

/-- What an argument is. -/
inductive Kind where
  | positional
  /-- The argument after which all others are positional. -/
  | separator
  /-- A long option, with its value if an equals sign gives one. -/
  | long (flag : Flag) (value : Option String)
  /-- Short options, given by their letters. -/
  | short (letters : List Char)
  /-- The beginning of several long options. -/
  | ambiguous
  | unknown
deriving DecidableEq, Repr

/-- An equals sign after the first of several short options has no meaning. -/
def dropEquals : List Char → List Char
  | letter :: '=' :: next :: letters => letter :: next :: letters
  | letters => letters

def kindOf (argument : String) : Kind :=
  match argument.toList with
  | ['-', '-'] => .separator
  | '-' :: '-' :: text =>
    let name := ('-' :: '-' :: text).takeWhile (· != '=')
    let rest := ('-' :: '-' :: text).drop name.length
    match longMatches name with
    | [flag] => .long flag (if rest.isEmpty then none else some (String.ofList (rest.drop 1)))
    | [] => if argument.toList.contains ' ' then .positional else .unknown
    | _ => .ambiguous
  | '-' :: letter :: letters =>
    if (shortFlag? letter).isSome then .short (dropEquals (letter :: letters))
    else if isNegativeNumber (letter :: letters) || argument.toList.contains ' ' then .positional
    else .unknown
  | _ => .positional

/-- An option that takes no value. -/
def Arguments.applyFlag (arguments : Arguments) : Flag → Except Refusal Arguments
  | .help => .error .help
  | .verbose => .ok { arguments with verbose := true }
  | .config | .seed => .error .usage

/-- An option with its value. -/
def Arguments.applyValue (arguments : Arguments) (value : String) : Flag → Except Refusal Arguments
  | .config => .ok { arguments with config := some value }
  | .seed =>
    if value = "--" then .ok { arguments with seed := some .nothing }
    else
      match Text.readNumeral 10 value.toList with
      | .ok seed => .ok { arguments with seed := some (.number seed) }
      | .error _ => .error .usage
  | .help | .verbose => .error .usage

def Flag.takesValue : Flag → Bool
  | .config | .seed => true
  | .help | .verbose => false

-- ---------------------------------------------------------------------------
-- Reading arguments
-- ---------------------------------------------------------------------------

/-- Arguments read so far. Arguments that there is no use for are remembered only, because a later
    request for help comes before the complaint about them. -/
structure Progress where
  arguments : Arguments := {}
  surplus : Bool := false
  /-- Whether an option came after the positional argument. -/
  closed : Bool := false

namespace Progress

def addPositional (progress : Progress) (argument : String) : Progress :=
  if progress.arguments.file.isSome then { progress with surplus := true }
  else { progress with arguments := { progress.arguments with file := some argument } }

/-- The arguments after a separator, which is itself of no use once the positional argument has
    been followed by an option. -/
def addRest (progress : Progress) (rest : List String) : Progress :=
  rest.foldl addPositional { progress with surplus := progress.surplus || progress.closed }

/-- Carry on after an option. -/
def withOption (progress : Progress) (arguments : Arguments) : Progress :=
  { progress with arguments, closed := progress.closed || arguments.file.isSome }

/-- Short options, each of which must be one before the first is used. -/
def addLetters (progress : Progress) (letters : List Char) : Except Refusal Progress := do
  let flags ← letters.mapM fun c => (shortFlag? c).elim (.error .usage) .ok
  return progress.withOption (← flags.foldlM Arguments.applyFlag progress.arguments)

end Progress

def readArguments (progress : Progress) : List String → Except Refusal Progress
  | [] => .ok progress
  | argument :: rest =>
    match kindOf argument with
    | .positional => readArguments (progress.addPositional argument) rest
    | .separator => .ok (progress.addRest rest)
    | .unknown => readArguments { progress with surplus := true } rest
    | .ambiguous => .error .usage
    | .short letters => do readArguments (← progress.addLetters letters) rest
    | .long flag (some value) => do
      let arguments ← progress.arguments.applyValue value flag
      readArguments (progress.withOption arguments) rest
    | .long flag none =>
      if flag.takesValue then
        match rest with
        | value :: rest =>
          if kindOf value = .positional then do
            let arguments ← progress.arguments.applyValue value flag
            readArguments (progress.withOption arguments) rest
          else .error .usage
        | [] => .error .usage
      else do
        let arguments ← progress.arguments.applyFlag flag
        readArguments (progress.withOption arguments) rest

/-- Read the arguments. An ambiguous one before any separator is refused before the first is
    used, and one that there is no use for after all have been read. -/
def Arguments.read (arguments : List String) : Except Refusal Arguments := do
  if (arguments.takeWhile (· != "--")).any (kindOf · = .ambiguous) then throw .usage
  let progress ← readArguments {} arguments
  if progress.surplus then throw .usage
  return progress.arguments

-- ---------------------------------------------------------------------------
-- Running
-- ---------------------------------------------------------------------------

/-- Where the text of the invocation comes from. -/
inductive Input where
  | file (text : String)
  | standard (text : String)
deriving DecidableEq, Repr

/-- The text of the invocation. The line ends of a file are unified. -/
def Input.source : Input → String
  | .file text => Text.unifyLineEnds text
  | .standard text => text

structure Outcome where
  code : Nat
  output : String
  complaint : String
  logLevel : LogLevel
deriving DecidableEq, Repr

/-- Failures that lead to no orderly outcome. -/
inductive Failure where
  | settings (problems : List Settings.Problem)
  /-- An error that names nothing in the invocation. -/
  | expansion (error : Error)
deriving DecidableEq, Repr

/-- Settings from a settings file, if there is one, at the log level of the arguments. -/
def settingsFor (arguments : Arguments) (config : Option Document) :
    Except (List Settings.Problem) Settings := do
  let settings ← (config.map Settings.ofFile).getD (.ok {})
  return { settings with logLevel := if arguments.verbose then .debug else settings.logLevel }

/-- The key from the seed of the arguments, or else of the settings, or else `drawn`. -/
def keyFor (arguments : Arguments) (settings : Settings) (drawn : Int) : String :=
  (arguments.seed.getD (.number (settings.seed.getD drawn))).key

/-- Expand the invocation in `input`. -/
def run (settings : Settings) (key : String) (input : Input) : Except Failure Outcome :=
  let options : Options := { key, lead := settings.lead, emitNotices := settings.emitNotices }
  match compose options input.source with
  | .ok code =>
    .ok { code := 0, output := code ++ "\n", complaint := "", logLevel := settings.logLevel }
  | .error e =>
    if e.isDiagnostic then
      .ok
        { code := 1, output := "", complaint := "error: " ++ e.report ++ "\n"
          logLevel := settings.logLevel }
    else .error (.expansion e)

/-- How the program is called. -/
def usage : String :=
  "usage: alias-expansion [-h] [--config CONFIG] [--seed SEED] [--verbose] [file]\n"

end AliasExpansion.CommandLine
