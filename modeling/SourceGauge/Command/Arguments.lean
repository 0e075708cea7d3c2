/-
# SourceGauge.Command.Arguments -- the words of a command line

The words name a command, its options and the path to measure.  An option has a
long name, and most have a letter too; letters may stand together in one word
(`-rc`).  The value of an option is the rest of its word (`-om.json`,
`--output-path=m.json`) or the next word, which must not look like an option.
After `--` every word is a path.

Words are read from left to right, and the first that is wrong, or that asks for
help or the version, ends the reading (`Stop`).  No option but `-v` may be given
twice.
-/
import SourceGauge.Settings
import SourceGauge.Text.Blank

namespace SourceGauge.Command

set_option autoImplicit false

/-! ## Options -/

/-- An option without a value. -/
inductive Flag where
  | relativePaths
  | allHeadersAsC
  | compress
  | withCoupling
  | quiet
  /-- May be given any number of times. -/
  | verbose
  | help
  | version
  deriving DecidableEq, Repr

/-- An option with a value. -/
inductive Field where
  | output
  | exclusions
  | headersAsC
  | workers
  | settingsFile
  deriving DecidableEq, Repr

/-- An option. -/
inductive Choice where
  | flag (flag : Flag)
  | field (field : Field)
  deriving DecidableEq, Repr

def commonOfLong? : String → Option Choice
  | "verbose" => some (.flag .verbose)
  | "quiet" => some (.flag .quiet)
  | "help" => some (.flag .help)
  | "version" => some (.flag .version)
  | _ => none

def commonOfShort? : Char → Option Choice
  | 'v' => some (.flag .verbose)
  | 'q' => some (.flag .quiet)
  | 'h' => some (.flag .help)
  | 'V' => some (.flag .version)
  | _ => none

def ofLong? : String → Option Choice
  | "relative-paths" => some (.flag .relativePaths)
  | "parse-h-as-c" => some (.flag .allHeadersAsC)
  | "compress" => some (.flag .compress)
  | "parse-dependencies" => some (.flag .withCoupling)
  | "quiet" => some (.flag .quiet)
  | "verbose" => some (.flag .verbose)
  | "help" => some (.flag .help)
  | "output-path" => some (.field .output)
  | "exclusions" => some (.field .exclusions)
  | "parse-some-h-as-c" => some (.field .headersAsC)
  | "concurrency" => some (.field .workers)
  | "config" => some (.field .settingsFile)
  | _ => none

def ofShort? : Char → Option Choice
  | 'r' => some (.flag .relativePaths)
  | 'c' => some (.flag .compress)
  | 'q' => some (.flag .quiet)
  | 'v' => some (.flag .verbose)
  | 'h' => some (.flag .help)
  | 'o' => some (.field .output)
  | 'e' => some (.field .exclusions)
  | 'j' => some (.field .workers)
  | _ => none

/-! ## Arguments -/

/-- Why reading words ends early. -/
inductive Stop where
  | wrong
  | help
  | version
  deriving DecidableEq, Repr

/-- What the words of the measuring command say. -/
structure Arguments where
  sources : Option Path := none
  flags : List Flag := []
  fields : List (Field × String) := []
  deriving DecidableEq, Repr

/-- A natural number of sixty-four bits, with or without a plus sign. -/
def count? (text : String) : Option Nat :=
  let digits := match text.toList with
    | '+' :: rest => rest
    | cs => cs
  if digits.isEmpty || !digits.all Char.isDigit then none
  else
    let value := digits.foldl (fun n c => 10 * n + (c.toNat - '0'.toNat)) 0
    if value < UInt64.size then some value else none

/-- Whether a field may have a value: paths are not empty, numbers are numbers. -/
def Field.allows (value : String) : Field → Bool
  | output | settingsFile => value ≠ ""
  | workers => (count? value).isSome
  | exclusions | headersAsC => true

namespace Arguments

def has (arguments : Arguments) (flag : Flag) : Bool := arguments.flags.contains flag

def get? (arguments : Arguments) (field : Field) : Option String :=
  (arguments.fields.find? fun item => item.1 = field).map (·.2)

def addFlag (arguments : Arguments) : Flag → Except Stop Arguments
  | .help => .error .help
  | .version => .error .version
  | .verbose => .ok arguments
  | flag =>
      if arguments.has flag then .error .wrong
      else .ok { arguments with flags := arguments.flags ++ [flag] }

def addField (arguments : Arguments) (field : Field) (value : String) : Except Stop Arguments :=
  if (arguments.get? field).isSome || !field.allows value then .error .wrong
  else .ok { arguments with fields := arguments.fields ++ [(field, value)] }

/-- Give the path to measure; there is one at most. -/
def addSources (arguments : Arguments) (word : String) : Except Stop Arguments :=
  if arguments.sources.isSome || word = "" then .error .wrong
  else .ok { arguments with sources := some ⟨word⟩ }

end Arguments

/-! ## Words -/

/-- The parts of a word. -/
inductive Word where
  /-- Two dashes alone. -/
  | divider
  /-- A long name, and the value after an equals sign. -/
  | long (name : String) (value : Option String)
  /-- The letters after one dash. -/
  | short (letters : List Char)
  | plain (text : String)
  deriving DecidableEq, Repr

def longParts (cs : List Char) : Word :=
  let name := String.ofList (cs.takeWhile (· ≠ '='))
  match cs.dropWhile (· ≠ '=') with
  | [] => .long name none
  | _ :: value => .long name (some (String.ofList value))

/-- The parts of a word; one dash alone is no option. -/
def Word.ofString (text : String) : Word :=
  match text.toList with
  | ['-', '-'] => .divider
  | '-' :: '-' :: cs => longParts cs
  | '-' :: c :: cs => .short (c :: cs)
  | _ => .plain text

/-- Read letters that stand together; the last may be an option whose value is the
next word. -/
def readLetters (lookUp : Char → Option Choice) :
    Arguments → List Char → Except Stop (Arguments × Option Field)
  | arguments, [] => .ok (arguments, none)
  | arguments, c :: rest =>
      match lookUp c with
      | none => .error .wrong
      | some (.flag flag) => (arguments.addFlag flag).bind fun read => readLetters lookUp read rest
      | some (.field field) =>
          match rest with
          | [] => .ok (arguments, some field)
          | d :: value =>
              let value := if d = '=' then value else d :: value
              (arguments.addField field (String.ofList value)).map fun read => (read, none)

/-- Read one word; it may end with an option whose value is the next word. -/
def readOption (long : String → Option Choice) (short : Char → Option Choice)
    (arguments : Arguments) : Word → Except Stop (Arguments × Option Field)
  | .long name value =>
      match long name, value with
      | some (.flag flag), none => (arguments.addFlag flag).map fun read => (read, none)
      | some (.field field), none => .ok (arguments, some field)
      | some (.field field), some value =>
          (arguments.addField field value).map fun read => (read, none)
      | _, _ => .error .wrong
  | .short letters => readLetters short arguments letters
  | _ => .error .wrong

def readPaths : Arguments → List String → Except Stop Arguments
  | arguments, [] => .ok arguments
  | arguments, word :: rest => (arguments.addSources word).bind fun read => readPaths read rest

/-- Read the words after the name of the measuring command; `pending` is an option
whose value comes next. -/
def readWords : Option Field → Arguments → List String → Except Stop Arguments
  | none, arguments, [] => .ok arguments
  | some _, _, [] => .error .wrong
  | pending, arguments, word :: rest =>
      match pending, Word.ofString word with
      | none, .divider => readPaths arguments rest
      | none, .plain text => (arguments.addSources text).bind fun read => readWords none read rest
      | none, option =>
          (readOption ofLong? ofShort? arguments option).bind fun read =>
            readWords read.2 read.1 rest
      | some field, .plain text =>
          (arguments.addField field text).bind fun read => readWords none read rest
      | some _, _ => .error .wrong

/-! ## Command lines -/

/-- A request to measure. -/
structure Request where
  arguments : Arguments
  /-- Say nothing when it went well. -/
  quiet : Bool
  deriving DecidableEq, Repr

/-- Read the words after the name of the help command: the commands to be
explained, if they exist. -/
def readHelp : List String → Stop
  | [] => .help
  | ["parse"] => .help
  | ["help"] => .help
  | _ => .wrong

def readLine : Arguments → List String → Except Stop Request
  | _, [] => .error .wrong
  | arguments, word :: rest =>
      match Word.ofString word with
      | .plain "parse" =>
          (readWords none {} rest).map fun read =>
            { arguments := read, quiet := arguments.has .quiet || read.has .quiet }
      | .plain "help" => .error (readHelp rest)
      | .plain _ => .error .wrong
      | .divider => .error .wrong
      | option =>
          (readOption commonOfLong? commonOfShort? arguments option).bind fun read =>
            readLine read.1 rest

/-! ## Settings -/

def Arguments.applyTo (arguments : Arguments) (settings : Settings) : Settings :=
  { settings with
    sources := arguments.sources.getD settings.sources
    output := ((arguments.get? .output).map Path.mk).getD settings.output
    exclusions := ((arguments.get? .exclusions).map Text.entries).getD settings.exclusions
    headersAsC := ((arguments.get? .headersAsC).map Text.entries).getD settings.headersAsC
    workers := ((arguments.get? .workers).bind count?).getD settings.workers
    relativePaths := settings.relativePaths || arguments.has .relativePaths
    allHeadersAsC := settings.allHeadersAsC || arguments.has .allHeadersAsC
    compress := settings.compress || arguments.has .compress
    withCoupling := settings.withCoupling || arguments.has .withCoupling }

end SourceGauge.Command
