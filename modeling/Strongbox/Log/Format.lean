import Strongbox.Host.World
import Strongbox.Log.Filter
import Strongbox.Text.Quoted

/-! Log lines, as plain text or as JSON objects with sorted keys, and the lines
that appear on standard error. -/

namespace Strongbox.Log

inductive Format where
  | plain | json
deriving DecidableEq, Repr

/-- The format that a setting selects. -/
def Format.ofSetting (setting : Option String) : Format :=
  if setting = some "json" then .json else .plain

/-- A field's value in a plain line: texts are quoted. -/
def plainValue : FieldValue → String
  | .text s => Text.quoted s
  | v => v.plain

/-- A plain line: level, origin, message and fields. -/
def plainLine (e : Event) : String :=
  " ".intercalate ([e.level.name, e.origin ++ ":", e.message]
    ++ e.fields.map fun f => f.1 ++ "=" ++ plainValue f.2)

/-- A character in a JSON string. -/
def jsonChar (c : Char) : String :=
  if c = '"' then "\\\""
  else if c = '\\' then "\\\\"
  else if c = '\n' then "\\n"
  else if c = '\r' then "\\r"
  else if c = '\t' then "\\t"
  else if c.toNat < 0x20 then "\\u" ++ ("".pushn '0' (4 - (Text.hexDigits c.toNat).length))
    ++ Text.hexDigits c.toNat
  else String.ofList [c]

def jsonString (s : String) : String := "\"" ++ String.join (s.toList.map jsonChar) ++ "\""

def jsonValue : FieldValue → String
  | .text s | .word s => jsonString s
  | .number n => toString n

/-- An object whose members stand in the order of their keys. -/
def jsonObject (members : List (String × String)) : String :=
  let sorted := members.mergeSort fun a b => decide (a.1 ≤ b.1)
  "\x7b" ++ ",".intercalate (sorted.map fun m => jsonString m.1 ++ ":" ++ m.2) ++ "\x7d"

/-- A line in JSON. -/
def jsonLine (e : Event) : String :=
  let fields := ("message", jsonString e.message) :: e.fields.map fun f => (f.1, jsonValue f.2)
  jsonObject [("fields", jsonObject fields), ("level", jsonString e.level.name),
    ("target", jsonString e.origin)]

def Format.line : Format → Event → String
  | .plain => plainLine
  | .json => jsonLine

/-- The lines on standard error: passing events among the plain lines. -/
def lines (format : Format) (filter : Filter) (notices : List Notice) : List String :=
  notices.filterMap fun
    | .line text => some text
    | .event e => if filter.passes e then some (format.line e) else none

end Strongbox.Log
