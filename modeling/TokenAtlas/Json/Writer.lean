import TokenAtlas.Json.Value

/-! Writing JSON values, on one line without blanks or over indented lines. -/

namespace TokenAtlas.Json

def hexDigit (n : Nat) : Char := Nat.digitChar n

/-- How a character is written in a string. Characters outside ASCII stand for
themselves. -/
def escapeChar (c : Char) : List Char :=
  match c with
  | '"' => ['\\', '"']
  | '\\' => ['\\', '\\']
  | '\x08' => ['\\', 'b']
  | '\x0c' => ['\\', 'f']
  | '\n' => ['\\', 'n']
  | '\r' => ['\\', 'r']
  | '\t' => ['\\', 't']
  | c =>
    if c < ' ' then ['\\', 'u', '0', '0', hexDigit (c.toNat / 16), hexDigit (c.toNat % 16)]
    else [c]

/-- Append a string in quotes to a text. -/
def appendString (text s : String) : String :=
  (s.toList.foldl (fun acc c => (escapeChar c).foldl String.push acc) (text.push '"')).push '"'

namespace Value

mutual

/-- Append a value without blanks to a text. -/
def appendCompact (text : String) : Value → String
  | .null => text ++ "null"
  | .bool true => text ++ "true"
  | .bool false => text ++ "false"
  | .int n => text ++ toString n
  | .real n e => text ++ s!"{n}e{e}"
  | .unreadable => text ++ "null"
  | .string s => appendString text s
  | .array [] => text ++ "[]"
  | .array (v :: rest) => (appendItems (appendCompact (text.push '[') v) rest).push ']'
  | .object [] => text ++ "\x7b\x7d"
  | .object ((k, v) :: rest) =>
    let text := (appendString (text.push '\x7b') k).push ':'
    (appendFields (appendCompact text v) rest).push '\x7d'

def appendItems (text : String) : List Value → String
  | [] => text
  | v :: rest => appendItems (appendCompact (text.push ',') v) rest

def appendFields (text : String) : List (String × Value) → String
  | [] => text
  | (k, v) :: rest =>
    let text := (appendString (text.push ',') k).push ':'
    appendFields (appendCompact text v) rest

end

/-- A line break and the indentation of the next line. -/
def newLine (depth : Nat) : String := (List.replicate (2 * depth) ' ').foldl String.push "\n"

mutual

/-- Append a value that stands at a depth of indentation to a text. -/
def appendPretty (depth : Nat) (text : String) : Value → String
  | .null => text ++ "null"
  | .bool true => text ++ "true"
  | .bool false => text ++ "false"
  | .int n => text ++ toString n
  | .real n e => text ++ s!"{n}e{e}"
  | .unreadable => text ++ "null"
  | .string s => appendString text s
  | .array [] => text ++ "[]"
  | .array (v :: rest) =>
    let text := appendPretty (depth + 1) (text.push '[' ++ newLine (depth + 1)) v
    (appendPrettyItems (depth + 1) text rest ++ newLine depth).push ']'
  | .object [] => text ++ "\x7b\x7d"
  | .object ((k, v) :: rest) =>
    let text := appendString (text.push '\x7b' ++ newLine (depth + 1)) k ++ ": "
    let text := appendPretty (depth + 1) text v
    (appendPrettyFields (depth + 1) text rest ++ newLine depth).push '\x7d'

def appendPrettyItems (depth : Nat) (text : String) : List Value → String
  | [] => text
  | v :: rest =>
    appendPrettyItems depth (appendPretty depth (text.push ',' ++ newLine depth) v) rest

def appendPrettyFields (depth : Nat) (text : String) : List (String × Value) → String
  | [] => text
  | (k, v) :: rest =>
    let text := appendString (text.push ',' ++ newLine depth) k ++ ": "
    appendPrettyFields depth (appendPretty depth text v) rest

end

/-- The value on one line. -/
def compact (v : Value) : String := appendCompact "" v

/-- The value over indented lines. -/
def pretty (v : Value) : String := appendPretty 0 "" v

end Value

end TokenAtlas.Json
