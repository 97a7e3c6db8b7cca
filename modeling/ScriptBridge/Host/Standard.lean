import ScriptBridge.Host.Bodies
import ScriptBridge.Host.Declaration

/-!
# The class library

The classes that every Host starts with: the lang classes, the primitive types and their wrappers,
throwables, class loaders, the service that lists packages, and two collections.
-/

namespace ScriptBridge.Host

/-- The service that lists the classes of a package. -/
def classListName : String := "solvra.embed.ClassList"

/-- The throwable that carries an error of a script. -/
def embedExceptionName : String := "solvra.embed.EmbedException"

def numberName : String := "java.lang.Number"
def listName : String := "java.util.List"
def mapName : String := "java.util.Map"
def collectionName : String := "java.util.Collection"

namespace Standard

/-- A method of the class library. -/
def method (name : String) (params : List String) (returns : String) (run : LibraryMethod) :
    MethodDeclaration :=
  { name, params, returns, body := .library run }

def staticMethod (name : String) (params : List String) (returns : String) (run : LibraryMethod) :
    MethodDeclaration :=
  { name, params, returns, isStatic := true, body := .library run }

def objectClass : Declaration :=
  { name := objectName
    constructors := [([], .fields)]
    methods :=
      [method "toString" [] stringName .objectText,
        method "equals" [objectName] "boolean" .objectEquals,
        method "hashCode" [] "int" .objectHash,
        method "getClass" [] className .objectClass] }

def classClass : Declaration :=
  { name := className
    superclass := some objectName
    methods :=
      [method "getName" [] stringName .className,
        method "isArray" [] "boolean" .classIsArray,
        method "toString" [] stringName .classText,
        method "equals" [objectName] "boolean" .classEquals] }

def stringClass : Declaration :=
  { name := stringName
    superclass := some objectName
    constructors := [([], .emptyText), ([stringName], .copyText)]
    methods :=
      [method "length" [] "int" .stringLength,
        method "isEmpty" [] "boolean" .stringIsEmpty,
        method "charAt" ["int"] "char" .stringCharAt,
        method "toUpperCase" [] stringName .stringUpperCase,
        method "concat" [stringName] stringName .stringConcat,
        method "toString" [] stringName .stringText,
        method "equals" [objectName] "boolean" .stringEquals] }

/-- The primitive types that a number converts to. -/
def numeric : List Primitive := [.byte, .short, .int, .long, .float, .double]

def numberClass : Declaration :=
  { name := numberName
    superclass := some objectName
    methods := numeric.map fun p => method (p.name ++ "Value") [] p.name (.numberValue p) }

/-- The methods that only one wrapper has. -/
def ownMethods : Primitive → List MethodDeclaration
  | .boolean => [method "booleanValue" [] "boolean" .wrappedBoolean]
  | .char => [method "charValue" [] "char" .wrappedChar]
  | .int =>
    [{ staticMethod "parseInt" [stringName] "int" .parseInt with
        throws := ["java.lang.NumberFormatException"] }]
  | _ => []

/-- The field that holds the class object of a wrapper's primitive type. -/
def typeField (primitive : String) : FieldDeclaration :=
  { name := "TYPE", typeName := className, value := some (.mirror primitive) }

def wrapperClass (p : Primitive) : Declaration :=
  { name := p.wrapper
    superclass := some (if p ∈ numeric then numberName else objectName)
    constructors := [([p.name], .wrap p)]
    methods :=
      [method "toString" [] stringName .wrapperText,
        method "equals" [objectName] "boolean" .wrapperEquals] ++ ownMethods p
    fields := [typeField p.name] }

def voidClass : Declaration :=
  { name := "java.lang.Void", superclass := some objectName, fields := [typeField "void"] }

def mathClass : Declaration :=
  { name := "java.lang.Math"
    superclass := some objectName
    methods :=
      [staticMethod "max" ["int", "int"] "int" .maxInt,
        staticMethod "max" ["long", "long"] "long" .maxLong,
        staticMethod "max" ["double", "double"] "double" .maxDouble,
        staticMethod "abs" ["int"] "int" .absInt] }

def throwableName : String := "java.lang.Throwable"

def throwableConstructors : List (List String × Construction) :=
  [([], .throwable), ([stringName], .throwable), ([stringName, throwableName], .causedThrowable)]

def throwableClass : Declaration :=
  { name := throwableName
    superclass := some objectName
    constructors := throwableConstructors
    methods :=
      [method "getMessage" [] stringName .throwableMessage,
        method "getCause" [] throwableName .throwableCause,
        method "toString" [] stringName .throwableText] }

/-- Throwable classes with the classes they extend. -/
def throwables : List (String × String) :=
  [("java.lang.Exception", throwableName),
    ("java.lang.Error", throwableName),
    ("java.lang.RuntimeException", "java.lang.Exception"),
    ("java.lang.IllegalArgumentException", "java.lang.RuntimeException"),
    ("java.lang.NumberFormatException", "java.lang.IllegalArgumentException"),
    ("java.lang.NullPointerException", "java.lang.RuntimeException"),
    ("java.lang.ClassCastException", "java.lang.RuntimeException"),
    ("java.lang.IndexOutOfBoundsException", "java.lang.RuntimeException"),
    ("java.lang.ArithmeticException", "java.lang.RuntimeException"),
    ("java.lang.ClassNotFoundException", "java.lang.Exception"),
    ("java.lang.NoSuchMethodException", "java.lang.Exception"),
    ("java.lang.InstantiationException", "java.lang.Exception"),
    ("java.lang.NoClassDefFoundError", "java.lang.Error"),
    ("java.lang.NoSuchMethodError", "java.lang.Error"),
    ("java.lang.AbstractMethodError", "java.lang.Error"),
    ("java.lang.OutOfMemoryError", "java.lang.Error"),
    ("java.lang.StackOverflowError", "java.lang.Error"),
    (embedExceptionName, "java.lang.Exception")]

def throwableSubclass (name superclass : String) : Declaration :=
  { name, superclass := some superclass, constructors := throwableConstructors }

def loaderClass : Declaration :=
  { name := loaderName
    superclass := some objectName
    methods :=
      [{ method "loadClass" [stringName] className .loadClass with
          throws := ["java.lang.ClassNotFoundException"] }] }

def classListClass : Declaration :=
  { name := classListName
    superclass := some objectName
    methods := [staticMethod "get" [stringName] (stringName ++ "[]") .listClasses] }

def collectionInterface : Declaration :=
  { name := collectionName
    isInterface := true
    methods :=
      [.missing collectionName "size" [] "int",
        .missing collectionName "isEmpty" [] "boolean",
        .missing collectionName "contains" [objectName] "boolean",
        .missing collectionName "add" [objectName] "boolean"] }

def listInterface : Declaration :=
  { name := listName
    isInterface := true
    interfaces := [collectionName]
    methods :=
      [.missing listName "get" ["int"] objectName,
        .missing listName "set" ["int", objectName] objectName] }

def arrayListClass : Declaration :=
  { name := "java.util.ArrayList"
    superclass := some objectName
    interfaces := [listName]
    constructors := [([], .emptyList)]
    methods :=
      [method "add" [objectName] "boolean" .listAdd,
        method "get" ["int"] objectName .listGet,
        method "set" ["int", objectName] objectName .listSet,
        method "contains" [objectName] "boolean" .listContains,
        method "size" [] "int" .listSize,
        method "isEmpty" [] "boolean" .listIsEmpty,
        method "toString" [] stringName .listText] }

def mapInterface : Declaration :=
  { name := mapName
    isInterface := true
    methods :=
      [.missing mapName "size" [] "int",
        .missing mapName "isEmpty" [] "boolean",
        .missing mapName "get" [objectName] objectName,
        .missing mapName "put" [objectName, objectName] objectName,
        .missing mapName "containsKey" [objectName] "boolean",
        .missing mapName "remove" [objectName] objectName] }

def hashMapClass : Declaration :=
  { name := "java.util.HashMap"
    superclass := some objectName
    interfaces := [mapName]
    constructors := [([], .emptyMap)]
    methods :=
      [method "size" [] "int" .mapSize,
        method "isEmpty" [] "boolean" .mapIsEmpty,
        method "get" [objectName] objectName .mapGet,
        method "containsKey" [objectName] "boolean" .mapContainsKey,
        method "put" [objectName, objectName] objectName .mapPut,
        method "remove" [objectName] objectName .mapRemove,
        method "toString" [] stringName .mapText] }

/-- The classes that are declared once the primitive types are there. -/
def declarations : List Declaration :=
  [stringClass, numberClass] ++ Primitive.all.map wrapperClass ++
    [voidClass, mathClass, throwableClass] ++
    throwables.map (fun (name, superclass) => throwableSubclass name superclass) ++
    [loaderClass, classListClass, collectionInterface, listInterface, arrayListClass,
      mapInterface, hashMapClass]

def primitiveNames : List String := Primitive.all.map (·.name) ++ ["void"]

def registerPrimitives : List String → StateM Realm Unit
  | [] => pure ()
  | name :: rest => do
    let c ← Realm.allocateClass { name, kind := .primitive }
    Realm.register c
    registerPrimitives rest

/-- Declares the class library. -/
def install : HostM Realm Unit := do
  Declaration.declareAll .none [objectClass, classClass]
  onRealm (registerPrimitives primitiveNames)
  Declaration.declareAll .none declarations

end Standard

/-- A Host with the class library. -/
def Realm.standard : Realm :=
  match Standard.install {} with
  | .ok _ r => r
  | .error _ r => r

end ScriptBridge.Host
