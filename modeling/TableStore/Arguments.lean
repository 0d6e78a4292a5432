import TableStore.Path

/-!
# Command line arguments

Options have a long form, and some a short one; a value follows as the next argument or in the
same one. An option is judged when the next one is met or the arguments end.
-/
namespace TableStore

structure Arguments where
  /-- The directory with one document for each database. -/
  directory : String
  /-- A statement to run. -/
  command : Option String
  /-- The path of a script to run. -/
  script : Option String
  deriving DecidableEq

namespace Arguments

def defaultDirectory : String := "data"

/-- The directory is the default one, however its path is written. -/
def hasDefaultDirectory (a : Arguments) : Bool :=
  Path.ofText a.directory = Path.ofText defaultDirectory

/-- Why arguments are not run. -/
inductive Stop where
  | missingValue
  | repeated
  | unknown
  | surplusValue
  | help
  | version
  deriving DecidableEq

inductive Setting where
  | directory
  | command
  | script
  deriving DecidableEq

/-- What an option does: it gives a setting its value, or asks for information. -/
inductive Action where
  | assign (s : Setting)
  | stop (reason : Stop)
  deriving DecidableEq

def longAction? (name : String) : Option Action :=
  if name = "data-dir" then some (.assign .directory)
  else if name = "command" then some (.assign .command)
  else if name = "file" then some (.assign .script)
  else if name = "help" then some (.stop .help)
  else if name = "version" then some (.stop .version)
  else none

def shortAction? : Char → Option Action
  | 'c' => some (.assign .command)
  | 'f' => some (.assign .script)
  | 'h' => some (.stop .help)
  | 'V' => some (.stop .version)
  | _ => none

/-- What one argument is by its form. -/
inductive Form where
  /-- The mark after which no option comes. -/
  | endOfOptions
  | long (name : String) (value : Option String)
  | short (letter : Char) (value : Option String)
  | plain (value : String)
  deriving DecidableEq

/-- A long option up to an equals sign, and its value after it. -/
def longForm (cs : List Char) : Form :=
  let name := String.ofList (cs.takeWhile (· != '='))
  match cs.dropWhile (· != '=') with
  | [] => .long name none
  | _ :: value => .long name (some (String.ofList value))

/-- What follows the letter of a short option is its value, with an equals sign before it or not. -/
def shortForm (letter : Char) : List Char → Form
  | [] => .short letter none
  | '=' :: value => .short letter (some (String.ofList value))
  | value => .short letter (some (String.ofList value))

def formOf (argument : String) : Form :=
  match argument.toList with
  | ['-', '-'] => .endOfOptions
  | '-' :: '-' :: cs => longForm cs
  | '-' :: c :: cs => shortForm c cs
  | _ => .plain argument

/-- The settings that have got a value. -/
structure Settings where
  directory : Option String := none
  command : Option String := none
  script : Option String := none

namespace Settings

def get? (s : Settings) : Setting → Option String
  | .directory => s.directory
  | .command => s.command
  | .script => s.script

def set (s : Settings) (name : Setting) (value : String) : Settings :=
  match name with
  | .directory => { s with directory := some value }
  | .command => { s with command := some value }
  | .script => { s with script := some value }

/-- A setting gets one value, and a path is not empty. -/
def assign (s : Settings) (name : Setting) (value : Option String) : Except Stop Settings :=
  match value with
  | none => .error .missingValue
  | some v =>
    if (s.get? name).isSome then .error .repeated
    else if name ≠ .command ∧ v = "" then .error .missingValue
    else .ok (s.set name v)

/-- The last option is judged. -/
def resolve (s : Settings) : Option (Setting × Option String) → Except Stop Settings
  | none => .ok s
  | some (name, value) => s.assign name value

end Settings

/-- Goes through the arguments. The option met last waits with the value it has so far. -/
def readSettings (s : Settings) (waiting : Option (Setting × Option String)) :
    List String → Except Stop Settings
  | [] => s.resolve waiting
  | a :: rest =>
    match formOf a with
    | .endOfOptions => if rest.isEmpty then s.resolve waiting else .error .unknown
    | .plain v =>
      match waiting with
      | some (name, none) => readSettings s (some (name, some v)) rest
      | _ => .error .unknown
    | .long name value =>
      match longAction? name, value with
      | none, _ => .error .unknown
      | some (.stop _), some _ => .error .surplusValue
      | some (.stop reason), none => s.resolve waiting >>= fun _ => .error reason
      | some (.assign setting), none =>
        s.resolve waiting >>= fun s => readSettings s (some (setting, none)) rest
      | some (.assign setting), some v => do
        let s ← s.resolve waiting
        let s ← s.assign setting (some v)
        readSettings s none rest
    | .short letter value =>
      match shortAction? letter, value with
      | none, _ => .error .unknown
      | some (.stop reason), _ => s.resolve waiting >>= fun _ => .error reason
      | some (.assign setting), none =>
        s.resolve waiting >>= fun s => readSettings s (some (setting, none)) rest
      | some (.assign setting), some v => do
        let s ← s.resolve waiting
        let s ← s.assign setting (some v)
        readSettings s none rest

/-- The arguments after the name of the program. -/
def read (arguments : List String) : Except Stop Arguments := do
  let s ← readSettings {} none arguments
  return ⟨s.directory.getD defaultDirectory, s.command, s.script⟩

end Arguments

end TableStore
