import ChainWatch.Hex
import ChainWatch.Log.Filter

/-!
# Log lines

A log line is written as plain text or as a JSON object; either way it tells the level, the target
and the message.
-/

namespace ChainWatch.Log

/-- A character inside of a JSON string. -/
def jsonChar (c : Char) : List Char :=
  match c with
  | '"' => ['\\', '"']
  | '\\' => ['\\', '\\']
  | '\n' => ['\\', 'n']
  | '\r' => ['\\', 'r']
  | '\t' => ['\\', 't']
  | c => if c.toNat < 32 then ['\\', 'u'] ++ Hex.fixed 4 c.toNat else [c]

def jsonString (s : String) : String := "\"" ++ String.ofList (s.toList.flatMap jsonChar) ++ "\""

/-- A line as plain text. -/
def plainLine (level : Level) (target message : String) : String :=
  level.mark ++ " " ++ target ++ ": " ++ message

/-- A line as a JSON object. -/
def jsonLine (level : Level) (target message : String) : String :=
  "\x7b\"level\":" ++ jsonString level.mark ++ ",\"fields\":\x7b\"message\":" ++ jsonString message
    ++ "\x7d,\"target\":" ++ jsonString target ++ "\x7d"

end ChainWatch.Log
