/-!
# Error types

What a script can raise. The built-in families all stand below `Exception`. Further types are
made while scripts run, each over a type that exists already; two of them may share name and
module and are still different, so a made type carries a number of its own.
-/

namespace ScriptBridge.Script

/-- Diagnostic codes, one for each kind of failure. -/
inductive ErrorCode where
  | badSyntax | moduleResolution | typeMismatch | invalidOperation | runtimePanic
deriving DecidableEq, Repr

def ErrorCode.text : ErrorCode → String
  | badSyntax => "E001"
  | moduleResolution => "E002"
  | typeMismatch => "E003"
  | invalidOperation => "E004"
  | runtimePanic => "E005"

/-- The built-in error types. -/
inductive Family where
  | exception | runtime | type | importing | parsing | name | attr | zeroDivision
  | value | index | key | overflow | memory
deriving DecidableEq, Repr

namespace Family

def all : List Family :=
  [exception, runtime, type, importing, parsing, name, attr, zeroDivision, value, index, key,
    overflow, memory]

def title : Family → String
  | exception => "Exception"
  | runtime => "RuntimeError"
  | type => "TypeError"
  | importing => "ImportError"
  | parsing => "SyntaxError"
  | name => "NameError"
  | attr => "AttributeError"
  | zeroDivision => "ZeroDivisionError"
  | value => "ValueError"
  | index => "IndexError"
  | key => "KeyError"
  | overflow => "OverflowError"
  | memory => "MemoryError"

/-- The type with a title. -/
def ofTitle? (title : String) : Option Family := all.find? (·.title == title)

def code : Family → ErrorCode
  | parsing => .badSyntax
  | importing => .moduleResolution
  | type => .typeMismatch
  | name | attr | zeroDivision | value | index | key | overflow => .invalidOperation
  | exception | runtime | memory => .runtimePanic

theorem mem_all (f : Family) : f ∈ all := by cases f <;> decide

end Family

/-- A type of errors. -/
inductive ErrorType where
  | builtin (family : Family)
  | made (serial : Nat) (name : String) (module : Option String) (base : ErrorType)
      (hostClass : Option String)
deriving DecidableEq

namespace ErrorType

/-- The part of a dotted name after its last dot. -/
def lastSegment (path : String) : String :=
  String.ofList (path.toList.reverse.takeWhile (· != '.')).reverse

/-- A type that stands for a Host exception class, named by the last part of the class name. -/
def mapped (serial : Nat) (hostClass module : String) (base : ErrorType) : ErrorType :=
  .made serial (lastSegment hostClass) (some module) base (some hostClass)

def name : ErrorType → String
  | builtin family => family.title
  | made _ name _ _ _ => name

def hostClass? : ErrorType → Option String
  | builtin _ => none
  | made _ _ _ _ hostClass => hostClass

/-- The name with its module, if it has one. -/
def qualifiedName : ErrorType → String
  | builtin family => family.title
  | made _ name none _ _ => name
  | made _ name (some module) _ _ => module ++ "." ++ name

/-- The diagnostic code is that of the built-in type at the bottom. -/
def code : ErrorType → ErrorCode
  | builtin family => family.code
  | made _ _ _ base _ => base.code

/-- The same type, which for made types means the same number. -/
def same : ErrorType → ErrorType → Bool
  | builtin f, builtin g => f == g
  | made i _ _ _ _, made j _ _ _ _ => i == j
  | _, _ => false

/-- `t` is `s` or is built over it. -/
def isSubtypeOf (t s : ErrorType) : Bool :=
  t.same s ||
    match t with
    | builtin .exception => false
    | builtin _ => (builtin .exception).same s
    | made _ _ _ base _ => base.isSubtypeOf s

/-- `t` belongs to a built-in family. -/
def isA (t : ErrorType) (family : Family) : Bool := t.isSubtypeOf (.builtin family)

/-- How a script sees the type. -/
def shown (t : ErrorType) : String := "<class '" ++ t.qualifiedName ++ "'>"

@[simp] theorem same_self (t : ErrorType) : t.same t = true := by
  cases t <;> simp [same]

theorem isSubtypeOf_self (t : ErrorType) : t.isSubtypeOf t = true := by
  cases t <;> (unfold isSubtypeOf; simp)

end ErrorType
end ScriptBridge.Script
