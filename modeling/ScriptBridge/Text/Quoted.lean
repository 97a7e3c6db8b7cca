/-!
# Quoted texts

A text in double quotes, in which quotes, backslashes and control characters are escaped as in
JSON. Every other character stands for itself.
-/

namespace ScriptBridge.Text

/-- A digit of a hexadecimal number. -/
def hexDigit (n : Nat) : Char := Nat.digitChar n

/-- A character between double quotes. -/
def escapedChar (c : Char) : List Char :=
  match c with
  | '"' => ['\\', '"']
  | '\\' => ['\\', '\\']
  | '\x08' => ['\\', 'b']
  | '\x0c' => ['\\', 'f']
  | '\n' => ['\\', 'n']
  | '\r' => ['\\', 'r']
  | '\t' => ['\\', 't']
  | c =>
    if c.toNat < 0x20 then
      ['\\', 'u', '0', '0', hexDigit (c.toNat / 16), hexDigit (c.toNat % 16)]
    else [c]

/-- A text in double quotes. -/
def quoted (text : String) : String :=
  String.ofList (['"'] ++ text.toList.flatMap escapedChar ++ ['"'])

end ScriptBridge.Text
