/-!
# Command lines (`SPEC_FULL.md`, 10.9)

A command line is options, then the name of a command, then its options and operands in any order.
A long option takes its value after an equals sign or from the next argument, a short one also from
the rest of its own argument. Short options without values may share an argument.
-/

namespace FluentWrappers.Command

/-! ### Options -/

inductive Setting where
  | help
  | version
  | verbose
  | color
  | types
  | file
  | outDir
  | overwrite
  | fluentPrefix
  | proxySuffix
  | objectProperty
  | interfacePrefix
  | noDereference
  | lenient
  | noHash
  | config
  | listing
  deriving DecidableEq, Repr

inductive ValueSort where
  | nothing
  | text
  | path
  deriving DecidableEq, Repr

namespace Setting

def name : Setting → String
  | help => "help"
  | version => "version"
  | verbose => "verbose"
  | color => "color"
  | types => "types"
  | file => "file"
  | outDir => "out-dir"
  | overwrite => "overwrite"
  | fluentPrefix => "prefix"
  | proxySuffix => "suffix"
  | objectProperty => "property-name"
  | interfacePrefix => "interface-prefix"
  | noDereference => "no-dereference"
  | lenient => "lenient"
  | noHash => "no-hash"
  | config => "config"
  | listing => "listing"

def letter? : Setting → Option Char
  | help => some 'h'
  | version => some 'V'
  | verbose => some 'v'
  | types => some 't'
  | file => some 'f'
  | outDir => some 'o'
  | overwrite => some 'd'
  | fluentPrefix => some 'b'
  | proxySuffix => some 'e'
  | objectProperty => some 'p'
  | color | interfacePrefix | noDereference | lenient | noHash | config | listing => none

def sort : Setting → ValueSort
  | help | version | verbose | overwrite | noDereference | lenient | noHash | listing => .nothing
  | color | types | fluentPrefix | proxySuffix | objectProperty | interfacePrefix => .text
  | file | outDir | config => .path

def mayRepeat : Setting → Bool
  | verbose | types => true
  | _ => false

def ofAll : List Setting := [help, verbose, color]

/-- The options of `build`. -/
def ofBuild : List Setting :=
  ofAll ++ [types, file, outDir, overwrite, fluentPrefix, proxySuffix, objectProperty,
    interfacePrefix, noDereference, lenient, noHash, config, listing]

end Setting

/-! ### Reading arguments -/

inductive Stop where
  | help
  | version
  /-- The command line is not well formed. -/
  | misuse
  deriving DecidableEq, Repr

structure Given where
  known : List Setting
  room : Nat
  /-- The options with their values in order; an option without a value has an empty one. -/
  settings : List (Setting × String) := []
  operands : List String := []
  pending : Option Setting := none
  operandsOnly : Bool := false
  deriving DecidableEq, Repr

namespace Given

def put (g : Given) (s : Setting) (value : String) : Except Stop Given :=
  if s = .help then .error .help
  else if s = .version then .error .version
  else if g.settings.any (·.1 == s) && !s.mayRepeat then .error .misuse
  else if s.sort = .path ∧ value.isEmpty then .error .misuse
  else .ok { g with settings := g.settings ++ [(s, value)], pending := none }

def putOperand (g : Given) (operand : String) : Except Stop Given :=
  if g.operands.length < g.room ∧ operand ≠ "" then
    .ok { g with operands := g.operands ++ [operand] }
  else .error .misuse

/-- Takes a long option: its name with, perhaps, an equals sign and a value. -/
def putLong (g : Given) (body : List Char) : Except Stop Given :=
  let name := String.ofList (body.takeWhile (· != '='))
  match g.known.find? (·.name == name), body.dropWhile (· != '=') with
  | none, _ => .error .misuse
  | some s, [] => if s.sort = .nothing then g.put s "" else .ok { g with pending := some s }
  | some s, _ :: value => if s.sort = .nothing then .error .misuse else g.put s (String.ofList value)

/-- Takes short options: letters of which the last may be followed by a value. -/
def putShort (g : Given) : List Char → Except Stop Given
  | [] => .ok g
  | letter :: rest =>
    match g.known.find? (·.letter? == some letter) with
    | none => .error .misuse
    | some s =>
      if s.sort = .nothing then do
        let g ← g.put s ""
        putShort g rest
      else
        match rest with
        | [] => .ok { g with pending := some s }
        | '=' :: value => g.put s (String.ofList value)
        | value => g.put s (String.ofList value)

/-- Whether an argument is no operand: a dash with something after it. -/
def isOption (argument : String) : Bool :=
  match argument.toList with
  | '-' :: _ :: _ => true
  | _ => false

def take (g : Given) (argument : String) : Except Stop Given :=
  if g.operandsOnly then g.putOperand argument
  else
    match g.pending with
    | some s => if isOption argument then .error .misuse else g.put s argument
    | none =>
      match argument.toList with
      | ['-', '-'] => .ok { g with operandsOnly := true }
      | '-' :: '-' :: body => g.putLong body
      | '-' :: c :: rest => g.putShort (c :: rest)
      | _ => g.putOperand argument

/-- All arguments of a command, none of whose options lacks its value and which has all operands. -/
def takeAll (g : Given) (arguments : List String) : Except Stop Given := do
  let g ← arguments.foldlM take g
  if g.pending.isSome || g.operands.length < g.room then throw .misuse
  else return g

def has (g : Given) (s : Setting) : Bool := g.settings.any (·.1 == s)

def value? (g : Given) (s : Setting) : Option String := g.settings.lookup s

def values (g : Given) (s : Setting) : List String :=
  (g.settings.filter (·.1 == s)).map (·.2)

end Given

/-! ### Commands -/

/-- What `build` is told. -/
structure BuildArguments where
  manifest : String
  /-- The types to make wrappers for; none stands for all. -/
  types : List String
  file : Option String
  outDir : Option String
  overwrite : Bool
  fluentPrefix : Option String
  proxySuffix : Option String
  objectProperty : Option String
  interfacePrefix : Option String
  noDereference : Bool
  lenient : Bool
  noHash : Bool
  config : Option String
  listing : Bool
  deriving DecidableEq, Repr

inductive Task where
  | build (arguments : BuildArguments)
  | inspect (artifact : String)
  | verify (artifact : String)
  deriving DecidableEq, Repr

/-- The arguments of `build`. -/
def buildArguments (g : Given) : Except Stop BuildArguments :=
  match g.operands with
  | [manifest] => .ok {
      manifest
      types := (g.values .types).flatMap (·.splitOn ",")
      file := g.value? .file
      outDir := g.value? .outDir
      overwrite := g.has .overwrite
      fluentPrefix := g.value? .fluentPrefix
      proxySuffix := g.value? .proxySuffix
      objectProperty := g.value? .objectProperty
      interfacePrefix := g.value? .interfacePrefix
      noDereference := g.has .noDereference
      lenient := g.has .lenient
      noHash := g.has .noHash
      config := g.value? .config
      listing := g.has .listing }
  | _ => .error .misuse

def taskOf (name : String) (arguments : List String) : Except Stop Task :=
  let onArtifact (task : String → Task) : Except Stop Task := do
    match (← ({ known := Setting.ofAll, room := 1 } : Given).takeAll arguments).operands with
    | [artifact] => return task artifact
    | _ => throw .misuse
  match name with
  | "build" => do
    let g ← ({ known := Setting.ofBuild, room := 1 } : Given).takeAll arguments
    return .build (← buildArguments g)
  | "inspect" => onArtifact .inspect
  | "verify" => onArtifact .verify
  | "help" =>
    match arguments with
    | [] => .error .help
    | [topic] => .error (if ["build", "inspect", "verify", "help"].contains topic then .help else .misuse)
    | _ => .error .misuse
  | _ => .error .misuse

def taskFrom (g : Given) : List String → Except Stop Task
  | [] => .error .misuse
  | argument :: rest =>
    if g.pending.isNone && !Given.isOption argument then taskOf argument rest
    else if argument = "--" then .error .misuse
    else do taskFrom (← g.take argument) rest

def task (arguments : List String) : Except Stop Task :=
  taskFrom { known := .version :: Setting.ofAll, room := 0 } arguments

end FluentWrappers.Command
