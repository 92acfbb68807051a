import NeuronFleet.Text.Printable

/-
  Quoting a string for a diagnostic message.

  A message that shows an offending string puts it in double quotes and
  escapes what would not read back or not show: the quote, the
  backslash, tab, carriage return, line feed and NUL by a backslash
  letter, and every other character that does not show as itself or
  would merge with the one before it (see `Text.Printable`) as
  `\u{hex}` with lower-case digits and no leading zeros.

  Main definitions:
    * `Text.isInvisible` : the characters written as `\u{hex}`
    * `Text.quoteForMessage`
-/

namespace NeuronFleet

namespace Text

/- Lower-case hexadecimal digits of a natural number, no leading zeros. -/
def hexDigits (n : Nat) : String :=
  String.ofList (Nat.toDigits 16 n)

/- Characters a message writes as `\u{hex}`: those that do not show as
themselves and those that extend the grapheme before them. -/
def isInvisible (c : Char) : Bool := extendsGrapheme c || !isPrintable c

/- One character inside a quoted message string. -/
def escapeForMessage (c : Char) : String :=
  if c = '"' then "\\\""
  else if c = '\\' then "\\\\"
  else if c = '\n' then "\\n"
  else if c = '\r' then "\\r"
  else if c = '\t' then "\\t"
  else if c.toNat = 0 then "\\0"
  else if isInvisible c then "\\u" ++ "\x7b" ++ hexDigits c.toNat ++ "\x7d"
  else String.singleton c

/- A string in double quotes, escaped for a message. -/
def quoteForMessage (s : String) : String :=
  "\"" ++ String.join (s.toList.map escapeForMessage) ++ "\""

end Text

end NeuronFleet
