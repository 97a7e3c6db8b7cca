import ScriptBridge.Config.Toml
import ScriptBridge.File
import ScriptBridge.Text.Blank
import ScriptBridge.Text.Quoted

/-!
# Configuration

The options of a bridge, read from a document and overridden by environment variables. The name
of the bridge module has to be an ASCII identifier.
-/

namespace ScriptBridge

structure Config where
  /-- New contexts write traces to the standard error stream. -/
  printStack : Bool := false
  /-- Host exceptions become error types of their own. -/
  mappedExceptions : Bool := true
  /-- The name under which scripts import the bridge. -/
  bridgeModule : String := "embed"
  /-- A filter for log output. -/
  logFilter : String := "warn"
deriving DecidableEq, Repr

/-- Why a configuration was refused. -/
inductive ConfigError where
  | notIdentifier (name : String)
  | notFlag (name value : String)
  /-- A document that is malformed or gives an option the wrong type. -/
  | badDocument
  | unreadable (path reason : String)
  | inFile (path : String) (error : ConfigError)
deriving DecidableEq, Repr

namespace ConfigError

/-- What is said about a refused configuration. Malformed documents have no text of their own. -/
def detail? : ConfigError → Option String
  | notIdentifier name => some s!"bridge_module '{name}' is not an identifier"
  | notFlag name value => some s!"{name}: expected a boolean, got '{value}'"
  | badDocument => none
  | unreadable path reason => some s!"reading {path}: {reason}"
  | inFile path error =>
    error.detail?.map fun text => s!"parsing {path}: invalid configuration: {text}"

def message? (e : ConfigError) : Option String :=
  e.detail?.map ("invalid configuration: " ++ ·)

end ConfigError

namespace Config

/-- The file of the default options, below the user's configuration directory. -/
def defaultFile : String := "solvra_embed/config.toml"

/-- A path below a directory. -/
def below (directory path : String) : String :=
  if directory.endsWith "/" then directory ++ path else directory ++ "/" ++ path

/-- Where the default options are looked for. -/
def defaultPath? (environment : String → Option String) : Option String :=
  let directory := match (environment "XDG_CONFIG_HOME").filter (·.startsWith "/") with
    | some directory => some directory
    | none => ((environment "HOME").filter (· != "")).map (below · ".config")
  directory.map (below · defaultFile)

def printStackVariable : String := "SOLVRA_EMBED_PRINT_STACK"

def mappedExceptionsVariable : String := "SOLVRA_EMBED_MAPPED_EXCEPTIONS"

/-- The variables that options depend on. -/
def variableNames : List String :=
  [printStackVariable, mappedExceptionsVariable, "XDG_CONFIG_HOME", "HOME"]

/-- The identifiers that a bridge module may be named by. -/
def isIdentifier (name : String) : Bool :=
  match name.toList with
  | [] => false
  | c :: rest => !c.isDigit && (c :: rest).all fun d => d.isAlphanum || d == '_'

def validate (c : Config) : Except ConfigError Unit :=
  if isIdentifier c.bridgeModule then .ok () else .error (.notIdentifier c.bridgeModule)

/-- A truth value of a document, or the default. -/
def boolOption (entries : Toml.Entries) (name : String) (default : Bool) :
    Except ConfigError Bool :=
  match entries.lookup name with
  | none => .ok default
  | some (.leaf (.bool value)) => .ok value
  | some _ => .error .badDocument

/-- A text of a document, or the default. -/
def textOption (entries : Toml.Entries) (name default : String) : Except ConfigError String :=
  match entries.lookup name with
  | none => .ok default
  | some (.leaf (.text value)) => .ok value
  | some _ => .error .badDocument

/-- The options of a document; missing ones have their defaults, unknown ones are ignored. -/
def ofDocument (text : String) : Except ConfigError Config := do
  match Toml.read? text with
  | none => .error .badDocument
  | some entries =>
    let printStack ← boolOption entries "print_stack" false
    let mappedExceptions ← boolOption entries "mapped_exceptions" true
    let bridgeModule ← textOption entries "bridge_module" "embed"
    let logFilter ← textOption entries "log_filter" "warn"
    let config : Config := { printStack, mappedExceptions, bridgeModule, logFilter }
    config.validate
    return config

/-- The options of a file. -/
def load (path : String) (content : File.Content) : Except ConfigError Config :=
  match content with
  | .error reason => .error (.unreadable path reason)
  | .ok text =>
    match ofDocument text with
    | .ok config => .ok config
    | .error e => .error (.inFile path e)

/-- A truth value of the environment. -/
def parseFlag (name value : String) : Except ConfigError Bool :=
  let word := String.ofList ((Text.trimChars value.toList).map Char.toLower)
  if ["1", "true", "yes", "on"].contains word then .ok true
  else if ["0", "false", "no", "off", ""].contains word then .ok false
  else .error (.notFlag name word)

/-- The options with those that the environment overrides. -/
def override (c : Config) (environment : String → Option String) : Except ConfigError Config := do
  let printStack ← match environment printStackVariable with
    | some value => parseFlag printStackVariable value
    | none => pure c.printStack
  let mappedExceptions ← match environment mappedExceptionsVariable with
    | some value => parseFlag mappedExceptionsVariable value
    | none => pure c.mappedExceptions
  return { c with printStack, mappedExceptions }

/-- The options as an object of JSON, one on each line. -/
def shown (c : Config) : String :=
  let flag (value : Bool) : String := if value then "true" else "false"
  let options : List (String × String) :=
    [("print_stack", flag c.printStack), ("mapped_exceptions", flag c.mappedExceptions),
      ("bridge_module", Text.quoted c.bridgeModule), ("log_filter", Text.quoted c.logFilter)]
  let lines := options.map fun (name, value) => "  " ++ Text.quoted name ++ ": " ++ value
  "\x7b\n" ++ ",\n".intercalate lines ++ "\n\x7d"

end Config
end ScriptBridge
