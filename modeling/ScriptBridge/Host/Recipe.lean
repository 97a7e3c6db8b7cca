import ScriptBridge.Host.Call

/-!
# Making values from recipes

A recipe is followed in the order in which it is written, and fails where a class or a constructor
that it mentions does not exist.
-/

namespace ScriptBridge.Host

variable {ω : Type} [Hosting ω]

mutual

/-- Makes the value that a recipe describes. -/
def Recipe.make (bodies : Bodies ω) : Recipe → HostM ω Value
  | .plain value => pure value
  | .string text => do return .ref (← onRealm (Realm.newText text))
  | .boxed recipe => do
    let value ← recipe.make bodies
    return .ofRef (← onRealm (Realm.newBoxed? value))
  | .array component items => do
    let items ← Recipe.makeAll bodies items
    let c ← findClass component
    return .ref (← onRealm (Realm.newArray c items))
  | .mirror name => do
    let c ← findClass name
    return .ref (← onRealm (Realm.mirror c))
  | .throwable name message none => do
    return .ref (← onRealm (Realm.newThrowable name message none))
  | .throwable name message (some cause) => do
    let cause ← cause.make bodies
    return .ref (← onRealm (Realm.newThrowable name message cause.ref?))
  | .object name params args => do
    let c ← findClass name
    let constructor ← getConstructor c params
    let args ← Recipe.makeAll bodies args
    return .ref (← newObject bodies c constructor args)
  | .loader packages => do return .ref (← onRealm (Realm.newLoader packages))
  | .named name => do return .ofRef ((← getRealm).named.get? name)

/-- Makes the values of several recipes. -/
def Recipe.makeAll (bodies : Bodies ω) : List Recipe → HostM ω (List Value)
  | [] => pure []
  | recipe :: rest => do
    let value ← recipe.make bodies
    return value :: (← Recipe.makeAll bodies rest)

end
end ScriptBridge.Host
