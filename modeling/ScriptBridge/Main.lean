import ScriptBridge.Console

/-!
# The program

Reads what the console needs from the outside, and writes what it says as soon as it is there.
-/

namespace ScriptBridge.Console

/-- The content of a file; nothing if it does not exist. -/
def readContent? (path : String) : IO (Option File.Content) := do
  try
    return some (File.ofBytes (← IO.FS.readBinFile path))
  catch
    | .noFileOrDirectory _ _ _ => return none
    | error => return some (.error (toString error))

/-- The files at some paths, as far as they exist. -/
def readFiles : List String → IO (Table File.Content)
  | [] => return {}
  | path :: rest => do
    let files ← readFiles rest
    return match ← readContent? path with
      | some content => files.insert path content
      | none => files

/-- The variables that are set. -/
def readVariables : List String → IO (Table String)
  | [] => return {}
  | name :: rest => do
    let others ← readVariables rest
    return match ← IO.getEnv name with
      | some value => others.insert name value
      | none => others

/-- The surroundings of a run with these arguments. -/
def readSurroundings (arguments : List String) : IO Surroundings := do
  let environment ← readVariables Config.variableNames
  let paths := match Command.read {} arguments with
    | .ok (.work command) => command.paths environment.get?
    | _ => []
  return { environment := environment.get?, files := ← readFiles paths }

def emit (output diagnostics : String) : IO Unit := do
  (← IO.getStdout).putStr output
  (← IO.getStdout).flush
  (← IO.getStderr).putStr diagnostics

/-- Takes lines until the input ends. -/
partial def converse (session : Session) : IO Outcome := do
  let ((output, diagnostics), session) := session.takeWritten
  emit output diagnostics
  let line ← try
      pure (Except.ok (← (← IO.getStdin).getLine))
    catch error => pure (Except.error (toString error))
  match line with
  | .error reason => return session.finish (some ⟨some "reading console input", reason⟩)
  | .ok "" => return session.leave
  | .ok line => converse (session.feedAll (lines line))

end ScriptBridge.Console

open ScriptBridge.Console in
def main (arguments : List String) : IO UInt32 := do
  let outcome ← match start arguments (← readSurroundings arguments) with
    | .ended outcome => pure outcome
    | .reading session => converse session
  emit outcome.output outcome.diagnostics
  return .ofNat outcome.code
