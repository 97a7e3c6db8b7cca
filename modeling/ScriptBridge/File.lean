/-!
# Files

What the read of a file gives: its text, or the reason why there is none.
-/

namespace ScriptBridge.File

/-- The text of a file, or why it cannot be read. -/
abbrev Content := Except String String

/-- What is read where there is no file. -/
def missing : Content := .error "No such file or directory (os error 2)"

/-- The text that bytes stand for. -/
def ofBytes (bytes : ByteArray) : Content :=
  match String.fromUTF8? bytes with
  | some text => .ok text
  | none => .error "stream did not contain valid UTF-8"

end ScriptBridge.File
