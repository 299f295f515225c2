import JsonDecoding.Text

/-!
# Blanks and decimal digits

The blank code points and the decimal digits of every script, as Unicode 14 classifies them.
-/

namespace JsonDecoding.Text

/-- The blank code points in order, as first and last of each run. -/
def blankRuns : List (CodePoint × CodePoint) :=
  [(0x9, 0xD), (0x1C, 0x20), (0x85, 0x85), (0xA0, 0xA0), (0x1680, 0x1680), (0x2000, 0x200A),
    (0x2028, 0x2029), (0x202F, 0x202F), (0x205F, 0x205F), (0x3000, 0x3000)]

/-- A code point that only separates. -/
def isBlank (c : CodePoint) : Bool := inRuns blankRuns c

/-- A code point that is white space: blank, but no separator of files, groups, records or units. -/
def isWhiteSpace (c : CodePoint) : Bool := isBlank c && !(0x1C ≤ c && c ≤ 0x1F)

/-- A blank code point of the ASCII range that ends a numeral: tab to carriage return, and space. -/
def isAsciiBlank (c : CodePoint) : Bool := (9 ≤ c && c ≤ 13) || c == 32

/-- The digit zero of each script; the other nine digits of the script follow it. -/
def zeroDigits : List CodePoint :=
  [0x30, 0x660, 0x6F0, 0x7C0, 0x966, 0x9E6, 0xA66, 0xAE6, 0xB66, 0xBE6, 0xC66, 0xCE6, 0xD66, 0xDE6,
   0xE50, 0xED0, 0xF20, 0x1040, 0x1090, 0x17E0, 0x1810, 0x1946, 0x19D0, 0x1A80, 0x1A90, 0x1B50,
   0x1BB0, 0x1C40, 0x1C50, 0xA620, 0xA8D0, 0xA900, 0xA9D0, 0xA9F0, 0xAA50, 0xABF0, 0xFF10, 0x104A0,
   0x10D30, 0x11066, 0x110F0, 0x11136, 0x111D0, 0x112F0, 0x11450, 0x114D0, 0x11650, 0x116C0,
   0x11730, 0x118E0, 0x11950, 0x11C50, 0x11D50, 0x11DA0, 0x16A60, 0x16AC0, 0x16B50, 0x1D7CE,
   0x1D7D8, 0x1D7E2, 0x1D7EC, 0x1D7F6, 0x1E140, 0x1E2F0, 0x1E950, 0x1FBF0]

/-- The value of a decimal digit of any script. -/
def decimalValue? (c : CodePoint) : Option Nat :=
  (zeroDigits.find? fun z => z ≤ c && c ≤ z + 9).map fun z => c - z

end JsonDecoding.Text
