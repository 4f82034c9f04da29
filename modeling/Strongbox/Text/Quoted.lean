/-! Quoted characters and strings, as diagnostics show them. -/

namespace Strongbox.Text

/-- The hexadecimal digits of a number, without leading zeros. -/
def hexDigits (n : Nat) : String := String.ofList (Nat.toDigits 16 n)

/-- A character inside quotes of the kind `quote`. Controls, and the two
characters of the first 256 that print nothing, are shown by number. -/
def escaped (quote c : Char) : String :=
  let n := c.toNat
  if c = quote || c = '\\' then String.ofList ['\\', c]
  else if c = '\t' then "\\t"
  else if c = '\n' then "\\n"
  else if c = '\r' then "\\r"
  else if n = 0 then "\\0"
  else if n < 0x20 || (0x7f ≤ n && n ≤ 0xa0) || n = 0xad then "\\u\x7b" ++ hexDigits n ++ "\x7d"
  else String.ofList [c]

def quotedChar (c : Char) : String := "'" ++ escaped '\'' c ++ "'"

def quoted (s : String) : String :=
  "\"" ++ String.join (s.toList.map (escaped '"')) ++ "\""

end Strongbox.Text
