import JsonDecoding.Text.Printable

/-!
# Quoted text

The quoted form of a text that reports show: single quotes, or double quotes when the text holds a
single quote and no double quote; a backslash before the quote in use and before a backslash; short
escapes for tab, line feed and carriage return; hexadecimal escapes for whatever is not printable.
-/

namespace JsonDecoding.Text

/-- The quote that a quoted text uses. -/
def quoteFor (t : Text) : CodePoint := if t.contains 39 && !t.contains 34 then 34 else 39

/-- One code point between the quotes. -/
def quotedPoint (quote c : CodePoint) : Text :=
  if c = quote || c = 92 then [92, c]
  else if c = 9 then lit "\\t"
  else if c = 10 then lit "\\n"
  else if c = 13 then lit "\\r"
  else if isPrintable c then [c]
  else if c < 0x100 then lit "\\x" ++ hex 2 c
  else if c < 0x10000 then lit "\\u" ++ hex 4 c
  else lit "\\U" ++ hex 8 c

/-- A text in quotes. -/
def quoted (t : Text) : Text :=
  [quoteFor t] ++ t.flatMap (quotedPoint (quoteFor t)) ++ [quoteFor t]

/-- One octet between the quotes: only printable ASCII is shown as it is. -/
def quotedOctet (quote c : Nat) : Text :=
  if c = quote || c = 92 then [92, c]
  else if c = 9 then lit "\\t"
  else if c = 10 then lit "\\n"
  else if c = 13 then lit "\\r"
  else if 0x20 ≤ c && c < 0x7F then [c]
  else lit "\\x" ++ hex 2 c

/-- A sequence of octets in quotes, after the letter that marks it. -/
def quotedOctets (octets : List Nat) : Text :=
  [98, quoteFor octets] ++ octets.flatMap (quotedOctet (quoteFor octets)) ++ [quoteFor octets]

end JsonDecoding.Text
