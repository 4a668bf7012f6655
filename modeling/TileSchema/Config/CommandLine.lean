/-!
# The command line

A command line is read from left to right.  An option is given by its long name, with its value
behind an equals sign or in the next argument, or by its letter; letters may be joined, and what
follows the letter of an option with a value is that value.

The value of an option is checked when the next option is met, or at the end.  So an argument that
makes no sense wins over a bad value directly in front of it.
-/

namespace TileSchema.Config

/-- Options with a value. -/
inductive ValueOption where
  | config
  | tag
  | baseUrl
  | schemaDir
  | output
  | format
  deriving Repr, DecidableEq

/-- Options without a value. -/
inductive SwitchOption where
  | verbose
  | help
  | version
  deriving Repr, DecidableEq

/-- An option. -/
inductive CommandOption where
  | value (o : ValueOption)
  | switch (o : SwitchOption)
  deriving Repr, DecidableEq

/-- Why a command line is not run: what it asks for instead, or what is wrong with it. -/
inductive ArgumentFault where
  /-- Two options that exclude each other, or one given twice. -/
  | conflict
  /-- A value that the option does not take, or none. -/
  | invalidValue
  /-- A value for an option without one. -/
  | unwantedValue
  | unknownArgument
  | helpWanted
  | versionWanted
  deriving Repr, DecidableEq

/-- The formats that can be asked for, by their names. -/
def formatNames : List String := ["rust", "json"]

/-- What a command line gives. -/
structure Arguments where
  config : Option String := none
  tag : Option String := none
  baseUrl : Option String := none
  schemaDir : Option String := none
  output : Option String := none
  format : Option String := none
  verbose : Bool := false
  deriving Repr, DecidableEq

/-! ### Names -/

/-- The option with a long name. -/
def longOption? (name : List Char) : Option CommandOption :=
  match String.ofList name with
  | "config" => some (.value .config)
  | "tag" => some (.value .tag)
  | "base-url" => some (.value .baseUrl)
  | "schema-dir" => some (.value .schemaDir)
  | "output" => some (.value .output)
  | "format" => some (.value .format)
  | "verbose" => some (.switch .verbose)
  | "help" => some (.switch .help)
  | "version" => some (.switch .version)
  | _ => none

/-- The option with a letter. -/
def letterOption? : Char → Option CommandOption
  | 'c' => some (.value .config)
  | 't' => some (.value .tag)
  | 'o' => some (.value .output)
  | 'v' => some (.switch .verbose)
  | 'h' => some (.switch .help)
  | 'V' => some (.switch .version)
  | _ => none

/-! ### Values -/

namespace Arguments

/-- The value given for an option. -/
def get (a : Arguments) : ValueOption → Option String
  | .config => a.config
  | .tag => a.tag
  | .baseUrl => a.baseUrl
  | .schemaDir => a.schemaDir
  | .output => a.output
  | .format => a.format

/-- The arguments with a value for an option. -/
def set (a : Arguments) (o : ValueOption) (value : String) : Arguments :=
  match o with
  | .config => { a with config := some value }
  | .tag => { a with tag := some value }
  | .baseUrl => { a with baseUrl := some value }
  | .schemaDir => { a with schemaDir := some value }
  | .output => { a with output := some value }
  | .format => { a with format := some value }

/-- Whether an option takes a value: a path is not empty, and a format is one that there is. -/
def accepts (o : ValueOption) (value : String) : Bool :=
  match o with
  | .config | .schemaDir | .output => !value.isEmpty
  | .tag | .baseUrl => true
  | .format => formatNames.contains value

/-- The arguments with a value for an option that has none yet. -/
def give (a : Arguments) (o : ValueOption) (value : String) : Except ArgumentFault Arguments :=
  if (a.get o).isSome then .error .conflict
  else if accepts o value then .ok (a.set o value)
  else .error .invalidValue

/-- The arguments with a switch turned on. -/
def turnOn (a : Arguments) : SwitchOption → Except ArgumentFault Arguments
  | .verbose => if a.verbose then .error .conflict else .ok { a with verbose := true }
  | .help => .error .helpWanted
  | .version => .error .versionWanted

end Arguments

/-- An option whose value is not checked yet, with its value if that has been read. -/
abbrev Pending := Option (ValueOption × Option String)

/-- The arguments with the value of the last option. -/
def Arguments.settle (a : Arguments) : Pending → Except ArgumentFault Arguments
  | none => .ok a
  | some (_, none) => .error .invalidValue
  | some (o, some value) => a.give o value

/-! ### Reading -/

/-- An argument cut at its first equals sign. -/
def cutAtEquals (cs : List Char) : List Char × Option String :=
  match cs.dropWhile (· ≠ '=') with
  | [] => (cs, none)
  | _ :: value => (cs.takeWhile (· ≠ '='), some (String.ofList value))

/-- An option by its long name, with the value behind the equals sign. -/
def readLong (a : Arguments) (last : Pending) (cs : List Char) :
    Except ArgumentFault (Arguments × Pending) := do
  let (name, value) := cutAtEquals cs
  match longOption? name, value with
  | none, _ => throw .unknownArgument
  | some (.switch _), some _ => throw .unwantedValue
  | some (.switch o), none => return (← (← a.settle last).turnOn o, none)
  | some (.value o), some v => return (← (← a.settle last).give o v, none)
  | some (.value o), none => return (← a.settle last, some (o, none))

/-- Options by their letters. -/
def readLetters (a : Arguments) (last : Pending) :
    List Char → Except ArgumentFault (Arguments × Pending)
  | [] => .ok (a, last)
  | c :: cs =>
    match letterOption? c with
    | none => .error .unknownArgument
    | some (.switch o) => do
      let a ← (← a.settle last).turnOn o
      readLetters a none cs
    | some (.value o) => do
      let a ← a.settle last
      match cs with
      | [] => return (a, some (o, none))
      | '=' :: value => return (← a.give o (String.ofList value), none)
      | value => return (← a.give o (String.ofList value), none)

/-- The arguments of a command line, some of which have been read. -/
def readArguments (a : Arguments) (last : Pending) :
    List String → Except ArgumentFault Arguments
  | [] => a.settle last
  | arg :: args =>
    match arg.toList with
    | ['-', '-'] => if args.isEmpty then a.settle last else .error .unknownArgument
    | '-' :: '-' :: cs => do
      let (a, last) ← readLong a last cs
      readArguments a last args
    | '-' :: c :: cs => do
      let (a, last) ← readLetters a last (c :: cs)
      readArguments a last args
    | _ =>
      match last with
      | some (o, none) => readArguments a (some (o, some arg)) args
      | _ => .error .unknownArgument

/-! ### The whole -/

/-- The variable that gives the settings file where no option does. -/
def configVariable : String := "TILEGEN_CONFIG"

/-- The arguments with a settings file from the environment, unless they name one. -/
def Arguments.withEnvironment (a : Arguments) (env : List (String × String)) :
    Except ArgumentFault Arguments :=
  match a.config, env.lookup configVariable with
  | none, some path => a.give .config path
  | _, _ => .ok a

/-- The arguments that a command line gives in an environment. -/
def Arguments.ofList (args : List String) (env : List (String × String)) :
    Except ArgumentFault Arguments := do
  let a ← readArguments {} none args
  let a ← a.withEnvironment env
  if a.baseUrl.isSome && a.schemaDir.isSome then throw .conflict
  return a

end TileSchema.Config
