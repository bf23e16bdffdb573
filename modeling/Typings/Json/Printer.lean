import Typings.Json.Basic

/-! # Printing JSON values

* `quote`: a text between quotes; quotes, backslashes and control characters are escaped.
* `pretty`: the value over several lines, two spaces for each level; an empty array or object stays
  on its line.
-/

namespace Typings.Json

def hexChar (n : Nat) : Char :=
  if n < 10 then Char.ofNat (0x30 + n) else Char.ofNat (0x57 + n)

def quoteChar (c : Char) : List Char :=
  if c = '\x22' then ['\\', '\x22']
  else if c = '\\' then ['\\', '\\']
  else if c = '\x08' then ['\\', 'b']
  else if c = '\x0c' then ['\\', 'f']
  else if c = '\n' then ['\\', 'n']
  else if c = '\r' then ['\\', 'r']
  else if c = '\t' then ['\\', 't']
  else if c.toNat < 0x20 then
    ['\\', 'u', '0', '0', hexChar (c.toNat / 16), hexChar (c.toNat % 16)]
  else [c]

def quote (text : String) : String :=
  .ofList ('\x22' :: text.toList.flatMap quoteChar ++ ['\x22'])

def newline (level : Nat) : String :=
  .ofList ('\n' :: List.replicate (2 * level) ' ')

mutual

/-- The value as text; its first line stands at `level`. -/
def prettyAt (level : Nat) : Json → String
  | .null => "null"
  | .bool value => if value then "true" else "false"
  | .integer value => toString value
  | .decimal shown => shown
  | .string text => quote text
  | .scalar _ j => j.prettyAt level
  | .array [] => "[]"
  | .array (j :: js) =>
    "[" ++ newline (level + 1) ++ j.prettyAt (level + 1) ++ prettyItems level js ++ newline level
      ++ "]"
  | .object [] => "\x7b\x7d"
  | .object (e :: es) =>
    "\x7b" ++ newline (level + 1) ++ e.prettyAt (level + 1) ++ prettyEntries level es
      ++ newline level ++ "\x7d"
  | .fault _ _ => "null"

def prettyItems (level : Nat) : List Json → String
  | [] => ""
  | j :: js => "," ++ newline (level + 1) ++ j.prettyAt (level + 1) ++ prettyItems level js

def prettyEntries (level : Nat) : List Entry → String
  | [] => ""
  | e :: es => "," ++ newline (level + 1) ++ e.prettyAt (level + 1) ++ prettyEntries level es

def Entry.prettyAt (level : Nat) : Entry → String
  | .field key j => quote key ++ ": " ++ j.prettyAt level
  | .fault _ _ => "null"

end

def pretty (j : Json) : String :=
  j.prettyAt 0

mutual

def compact : Json → String
  | .null => "null"
  | .bool value => if value then "true" else "false"
  | .integer value => toString value
  | .decimal shown => shown
  | .string text => quote text
  | .scalar _ j => j.compact
  | .array [] => "[]"
  | .array (j :: js) => "[" ++ j.compact ++ compactItems js ++ "]"
  | .object [] => "\x7b\x7d"
  | .object (e :: es) => "\x7b" ++ e.compact ++ compactEntries es ++ "\x7d"
  | .fault _ _ => "null"

def compactItems : List Json → String
  | [] => ""
  | j :: js => "," ++ j.compact ++ compactItems js

def compactEntries : List Entry → String
  | [] => ""
  | e :: es => "," ++ e.compact ++ compactEntries es

def Entry.compact : Entry → String
  | .field key j => quote key ++ ":" ++ j.compact
  | .fault _ _ => "null"

end

end Typings.Json
