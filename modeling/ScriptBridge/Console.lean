import ScriptBridge.Installation

/-!
# The console

The program runs a script file, or reads statements line by line. Lines are gathered until together
they are a complete statement or until a blank line ends them; then they are evaluated, and what
goes wrong is reported. What is gathered is the only thing that a line leaves to the next one.
-/

namespace ScriptBridge

open Bridge (World Machine ContextId Failure)

namespace Console

/-! ### Lines -/

/-- The lines of a text with their ends. The last line may have none. -/
def splitLines : List Char → List (List Char)
  | [] => []
  | c :: rest =>
    if c = '\n' then [c] :: splitLines rest
    else
      match splitLines rest with
      | [] => [[c]]
      | line :: more => (c :: line) :: more

/-- A line without its end. -/
def dropEnd (line : List Char) : List Char :=
  match line.reverse with
  | '\n' :: '\r' :: rest => rest.reverse
  | '\n' :: rest => rest.reverse
  | _ => line

def lines (text : String) : List String :=
  (splitLines text.toList).map fun line => String.ofList (dropEnd line)

/-! ### Statements -/

variable {ε : Type}

/-- What stands in front of a line that follows on `pending`. -/
def invitation (pending : String) : String := if pending = "" then ">>> " else "... "

/-- Lines gathered so far, with one more. -/
def gather (pending line : String) : String :=
  if pending = "" then line else pending ++ "\n" ++ line

/-- Whether gathered lines are evaluated now. A blank line ends what was begun. -/
def statusAfter (x : Machine) (c : ContextId) (gathered line : String) :
    Context.Operation Context.CompileStatus :=
  if Text.isBlankText line && !Text.isBlankText gathered then pure .complete
  else Context.check x c gathered

/-- Evaluates a complete statement. -/
def evaluate (x : Machine) (c : ContextId) (statement : String) : Context.Operation Unit :=
  if Text.isBlankText statement then pure () else Context.eval x c statement

/-- Takes the next line. The result is what has to be followed by more lines. -/
def feed (x : Machine) (c : ContextId) (pending line : String) : EStateM ε World String := do
  let gathered := gather pending line
  let step : Context.Operation String := do
    match ← statusAfter x c gathered line with
    | .incomplete => return gathered
    | .complete =>
      evaluate x c gathered
      return ""
  match ← Script.attempt step with
  | .ok pending => return pending
  | .error failure =>
    Script.reportLine failure.message
    return ""

/-- Takes lines one after the other. -/
def feedAll (x : Machine) (c : ContextId) : (pending : String) → List String →
    EStateM ε World String
  | pending, [] => return pending
  | pending, line :: rest => do
    let pending ← feed x c pending line
    Script.printText (invitation pending)
    feedAll x c pending rest

/-! ### Arguments -/

/-- What the program is asked to do. -/
structure Command where
  script : Option String := none
  config : Option String := none
  showConfig : Bool := false
  printStack : Bool := false
deriving DecidableEq, Repr

inductive Request where
  | help
  | work (command : Command)
deriving DecidableEq, Repr

/-- Why arguments are refused. -/
inductive Refusal where
  | unexpected (argument : String)
  | repeated (option : String)
  | missingValue (option : String)
  | needlessValue (option : String)
deriving DecidableEq, Repr

def usage : String := "Usage: [OPTIONS] [SCRIPT]\n"

def Refusal.message : Refusal → String
  | unexpected argument => s!"error: unexpected argument '{argument}' found"
  | repeated option => s!"error: the argument '{option}' cannot be used multiple times"
  | missingValue option => s!"error: a value is required for '{option}' but none was supplied"
  | needlessValue option => s!"error: unexpected value for '{option}' found"

def helpText : String :=
  "Runs a script file, or reads statements line by line\n\n" ++ usage ++
    "\nArguments:\n  [SCRIPT]  Script file to run; without it, statements are read\n" ++
    "\nOptions:\n" ++
    "      --config <CONFIG>  Read the options of the bridge from this file\n" ++
    "      --show-config      Print the options in effect and exit\n" ++
    "      --print-stack      Write traces of errors to the standard error stream\n" ++
    "  -h, --help             Print help\n"

namespace Command

/-- An argument that names the script. -/
def withScript (c : Command) (argument : String) : Except Refusal Command :=
  if argument = "" then .error (.missingValue "[SCRIPT]")
  else if c.script.isSome then .error (.unexpected argument)
  else .ok { c with script := some argument }

def withConfig (c : Command) (path : String) : Except Refusal Command :=
  if path = "" then .error (.missingValue "--config <CONFIG>")
  else if c.config.isSome then .error (.repeated "--config <CONFIG>")
  else .ok { c with config := some path }

def withShowConfig (c : Command) : Except Refusal Command :=
  if c.showConfig then .error (.repeated "--show-config") else .ok { c with showConfig := true }

def withPrintStack (c : Command) : Except Refusal Command :=
  if c.printStack then .error (.repeated "--print-stack") else .ok { c with printStack := true }

/-- An argument that is an option and not a value. -/
def isOption (argument : String) : Bool := argument.startsWith "-" && argument != "-"

/-- What an argument of the form `--name=value` names and gives. -/
def assigned? (argument : String) : Option (String × String) :=
  let cs := argument.toList
  match cs.dropWhile (· != '=') with
  | _ :: value => some (String.ofList (cs.takeWhile (· != '=')), String.ofList value)
  | [] => none

/-- An argument that is neither a known option without a value nor followed by its value. -/
def withOther (c : Command) (argument : String) : Except Refusal Command :=
  if !isOption argument then c.withScript argument
  else
    match assigned? argument with
    | some ("--config", value) => c.withConfig value
    | some ("--show-config", _) => .error (.needlessValue "--show-config")
    | some ("--print-stack", _) => .error (.needlessValue "--print-stack")
    | some ("--help", _) => .error (.needlessValue "--help")
    | _ => .error (.unexpected argument)

/-- Reads the arguments from the left. After two dashes there are no more options. -/
def read (c : Command) : List String → Except Refusal Request
  | [] => .ok (.work c)
  | "--" :: rest => do return .work (← rest.foldlM withScript c)
  | "--config" :: value :: rest => do
    if isOption value then .error (.missingValue "--config <CONFIG>")
    else (← c.withConfig value).read rest
  | "--config" :: [] => .error (.missingValue "--config <CONFIG>")
  | "--show-config" :: rest => do (← c.withShowConfig).read rest
  | "--print-stack" :: rest => do (← c.withPrintStack).read rest
  | argument :: rest => do
    if argument = "--help" || argument.startsWith "-h" then return .help
    else (← c.withOther argument).read rest

end Command

/-! ### The program -/

/-- What the program finds around it. -/
structure Surroundings where
  environment : String → Option String := fun _ => none
  files : Table File.Content := {}

def Surroundings.file (s : Surroundings) (path : String) : File.Content :=
  (s.files.get? path).getD File.missing

/-- Why the program failed: what it was doing, where that is said, and what went wrong. -/
structure Trouble where
  doing : Option String
  reason : String

/-- The report of a failure. Each line of a reason that follows is indented. -/
def Trouble.report (t : Trouble) : String :=
  match t.doing with
  | none => "Error: " ++ t.reason ++ "\n"
  | some doing =>
    let lines := (t.reason.splitOn "\n").map ("    " ++ ·)
    "Error: " ++ doing ++ "\n\nCaused by:\n" ++ "\n".intercalate lines ++ "\n"

def Trouble.ofConfig (e : ConfigError) : Trouble := ⟨none, (Failure.badConfig e).message⟩

/-- What the program leaves behind. -/
structure Outcome where
  output : String
  diagnostics : String
  code : Nat

def Outcome.failed (t : Trouble) : Outcome := ⟨"", t.report, 1⟩

/-- The options in effect: those of the file that is named, or else of the default file if there
is one, with what the environment and the arguments override. -/
def Command.options (c : Command) (s : Surroundings) : Except ConfigError Config := do
  let config ← match c.config with
    | some path => Config.load path (s.file path)
    | none =>
      match (Config.defaultPath? s.environment).filter s.files.contains with
      | some path => Config.load path (s.file path)
      | none => pure {}
  let config ← config.override s.environment
  return if c.printStack then { config with printStack := true } else config

/-- The files that may be read. -/
def Command.paths (c : Command) (environment : String → Option String) : List String :=
  (c.config.or (Config.defaultPath? environment)).toList ++ c.script.toList

/-- A run that has opened its context. -/
structure Session where
  world : World
  context : ContextId
  pending : String := ""

namespace Session

/-- Opens the only context of a new bridge. -/
def start (config : Config) : Except Trouble Session :=
  match Context.start config World.fresh with
  | .error e _ => .error { Trouble.ofConfig e with doing := some "initialising bridge" }
  | .ok () w =>
    match Context.openSystem w with
    | .error failure _ => .error ⟨none, failure.message⟩
    | .ok context world => .ok { world, context }

/-- Takes a step that cannot fail. -/
def advance {α : Type} (s : Session) (step : EStateM Empty World α) : α × Session :=
  match step s.world with
  | .ok a world => (a, { s with world })
  | .error e _ => nomatch e

/-- Asks for the first line. -/
def ask (s : Session) : Session := (s.advance (Script.printText (invitation s.pending))).2

/-- Takes lines, and asks for a further one after each. -/
def feedAll (s : Session) (lines : List String) : Session :=
  let (pending, s) := s.advance (Console.feedAll Context.standard s.context s.pending lines)
  { s with pending }

/-- Takes what was written so far. -/
def takeWritten (s : Session) : (String × String) × Session := s.advance Script.takeWritten

/-- Closes the context and the bridge. -/
def finish (s : Session) (trouble : Option Trouble) : Outcome :=
  let work : Context.Operation Unit := do
    Context.close s.context
    Context.shutDown
  let (trouble, world) := match work s.world with
    | .ok () world => (trouble, world)
    | .error failure world => (some ⟨none, failure.message⟩, world)
  let report := (trouble.map Trouble.report).getD ""
  ⟨world.memory.output, world.memory.diagnostics ++ report, if trouble.isSome then 1 else 0⟩

/-- The end of the input. -/
def leave (s : Session) : Outcome := (s.advance (Script.printLine "")).2.finish none

/-- Runs a script file. -/
def runFile (s : Session) (path : String) (content : File.Content) : Outcome :=
  match Context.run Context.standard s.context path content s.world with
  | .ok () world => { s with world }.finish none
  | .error failure world =>
    { s with world }.finish (some ⟨some ("running " ++ path), failure.message⟩)

end Session

/-- How far a run comes without reading lines. -/
inductive Progress where
  | ended (outcome : Outcome)
  | reading (session : Session)

/-- Does what a command asks for. -/
def Command.perform (c : Command) (s : Surroundings) : Progress :=
  match c.options s with
  | .error e => .ended (.failed (.ofConfig e))
  | .ok config =>
    if c.showConfig then .ended ⟨config.shown ++ "\n", "", 0⟩
    else
      match Session.start config with
      | .error trouble => .ended (.failed trouble)
      | .ok session =>
        match c.script with
        | some path => .ended (session.runFile path (s.file path))
        | none => .reading session.ask

/-- Starts the program. -/
def start (arguments : List String) (s : Surroundings) : Progress :=
  match Command.read {} arguments with
  | .error refusal => .ended ⟨"", refusal.message ++ "\n\n" ++ usage, 2⟩
  | .ok .help => .ended ⟨helpText, "", 0⟩
  | .ok (.work command) => command.perform s

/-- A whole run of the program. -/
def run (arguments : List String) (input : String) (s : Surroundings) : Outcome :=
  match start arguments s with
  | .ended outcome => outcome
  | .reading session => (session.feedAll (lines input)).leave

end Console
end ScriptBridge
