import ScriptBridge.Host.Library
import ScriptBridge.Host.Recipe

/-!
# Bodies

What methods and constructors do. A body may call into the Host again; what such calls run is
given from below, so that bodies are defined level by level. Bodies that call a script back are
left to the caller.
-/

namespace ScriptBridge.Host

variable {ω : Type} [Hosting ω]

/-! ### Descriptions -/

/-- The text by which a body describes an argument. -/
def Realm.depict (r : Realm) (depth : Nat) (value : Value) : String :=
  match value, depth with
  | .void, _ => "void"
  | .null, _ => "null"
  | .boolean b, _ => if b then "boolean:true" else "boolean:false"
  | .byte n, _ => s!"byte:{n.toInt}"
  | .char unit, _ => s!"char:{unit.toNat}"
  | .short n, _ => s!"short:{n.toInt}"
  | .int n, _ => s!"int:{n.toInt}"
  | .long n, _ => s!"long:{n.toInt}"
  | .float x, _ => "float:" ++ Decimal.float32Text x
  | .double x, _ => "double:" ++ Decimal.floatText x
  | .ref o, 0 => r.classNameOf o
  | .ref o, depth + 1 =>
    match r.payload o with
    | .text text => "\"" ++ text ++ "\""
    | .boxed inner => r.classNameOf o ++ "<" ++ r.depict depth inner ++ ">"
    | .mirror c => "class " ++ r.nameOf c
    | .array items =>
      r.classNameOf o ++ "[" ++ String.intercalate ", " (items.map (r.depict depth)) ++ "]"
    | _ => r.classNameOf o
termination_by depth

/-- A tag with the descriptions of the arguments. -/
def Realm.depictCall (r : Realm) (tag : String) (args : List Value) : String :=
  tag ++ "(" ++ String.intercalate ", " (args.map (r.depict (r.objects.size + 1))) ++ ")"

/-! ### Constructors -/

/-- The message that a constructor's first argument gives a throwable. -/
def messageArgument (args : List Value) : BodyM ω (Option String) :=
  match args[0]?.bind Value.ref? with
  | some o => do return some (← calling (stringChars o))
  | none => pure none

/-- Throws a throwable that has a cause. -/
def throwWith {α : Type} (bodies : Bodies ω) (name : String) (message : Option String)
    (cause : Recipe) : BodyM ω α := do
  let cause ← calling (cause.make bodies)
  throw (.object (← onRealm (Realm.newThrowable name message cause.ref?)))

/-- Fills a new object. -/
def Construction.run (bodies : Bodies ω) (construction : Construction) (c : ClassId)
    (args : List Value) : BodyM ω Payload :=
  match construction with
  | .fields => do return .fields ((← getRealm).initialFields c)
  | .assigned names => do
    let initial := (← getRealm).initialFields c
    return .fields ((names.zip args).foldl (fun t (name, value) => t.insert name value) initial)
  | .emptyText => pure (.text "")
  | .copyText => do return .text (← textArgument args 0)
  | .wrap p => do return .boxed (← narrowed p (args[0]?.getD .void))
  | .wrapAny => pure (.boxed (args[0]?.getD .void))
  | .describe tag => do return .text ((← getRealm).depictCall tag args)
  | .throwable => do return .throwable (← messageArgument args) none
  | .causedThrowable => do
    return .throwable (← messageArgument args) (args[1]?.bind Value.ref?)
  | .emptyList => pure (.list [])
  | .emptyMap => pure (.map [])
  | .sealed => pure .sealed
  | .fail name message => throw (.new name message)
  | .failWith name message cause => throwWith bodies name message cause
  | .failPending => throw .pending

/-! ### Methods -/

/-- What a body asks of the script side. -/
inductive Callback where
  | evaluate (context expression : String)
  | closeContext (context : String)
  | closeContexts

/-- Replaces an element of an array and gives the old one. -/
def replaceElement (array : ObjectId) (index : Nat) (value : Value) : HostM ω Value := do
  let items ← arrayElements array
  releaseArrayElements array (items.set index value) true
  return items.getD index .null

/-- Appends an element to an array's storage. -/
def appendElement (array : ObjectId) (value : Value) : StateM Realm Unit := do
  match (← get).payload array with
  | .array items => Realm.setPayload array (.array (items ++ [value]))
  | _ => pure ()

/-- Runs the body of a method. -/
def Body.run (callback : Callback → BodyM ω Value) (bodies : Bodies ω) (body : Body)
    (target : Option ObjectId) (args : List Value) : BodyM ω Value :=
  match body with
  | .library method => method.run bodies target args
  | .missing owner method =>
    throw (.new "java.lang.AbstractMethodError" (some (owner ++ "." ++ method)))
  | .constant recipe => calling (recipe.make bodies)
  | .describe tag => do textResult ((← getRealm).depictCall tag args)
  | .argument index => pure (args.getD index .null)
  | .receiver => pure (.ofRef target)
  | .sum => pure (.int (args.foldl (fun n v => n + v.whole?.getD 0) (0 : Int64)).toInt32)
  | .poke index recipe => do
    let array ← objectArgument args 0
    let value ← calling (recipe.make bodies)
    calling (replaceElement array index value)
  | .grow name recipe => do
    let value ← calling (recipe.make bodies)
    match (← getRealm).named.get? name with
    | some array => onRealm (appendElement array value)
    | none => pure ()
    return .void
  | .fail name message => throw (.new name message)
  | .failWith name message cause => throwWith bodies name message cause
  | .failPending => throw .pending
  | .leak name message recipe => do
    let value ← calling (recipe.make bodies)
    let c ← calling (findClass name)
    onRealm (Realm.makePending c message)
    return value
  | .evaluate context expression => callback (.evaluate context expression)
  | .closeContext context => callback (.closeContext context)
  | .closeContexts => callback .closeContexts

/-! ### Levels -/

/-- Bodies that may call only what is given from below. -/
def Bodies.over (callback : Callback → BodyM ω Value) (below : Unit → Bodies ω) : Bodies ω where
  method := fun body target args => body.run callback (below ()) target args
  construct := fun construction c args => construction.run (below ()) c args

/-- Bodies that do nothing but fail. -/
def Bodies.none : Bodies ω where
  method := fun _ _ _ => throw .pending
  construct := fun _ _ _ => throw .pending

/-- Bodies of a Host without a script side, which may nest `depth` calls. -/
def Bodies.alone : (depth : Nat) → Bodies ω
  | 0 => .none
  | depth + 1 => .over (fun _ => throw .pending) fun _ => .alone depth

end ScriptBridge.Host
