import DocumentStore.Text.Age
import DocumentStore.Text.Alphabetic
import DocumentStore.Text.Mark
import DocumentStore.Text.Numeral

/- Character classes of the statement language. Each class is a Unicode property; an ASCII
   character is decided by a direct test and any other by the ranges of the property. Words and
   decimal digits are those of version 16.0 of the standard, letters and numbers those of 17.0: a
   letter that only 17.0 assigns may stand in a field name, but it ends a word. -/
namespace DocumentStore.Text

/-- One of the ranges holds the code point of `c`. -/
def inRanges (ranges : List (Nat × Nat)) (c : Char) : Bool :=
  ranges.any fun r => r.1 ≤ c.toNat && c.toNat ≤ r.2

/-- Code points with the property White_Space. -/
def blankRanges : List (Nat × Nat) :=
  [(0x9, 0xD), (0x20, 0x20), (0x85, 0x85), (0xA0, 0xA0), (0x1680, 0x1680), (0x2000, 0x200A),
    (0x2028, 0x2029), (0x202F, 0x202F), (0x205F, 0x205F), (0x3000, 0x3000)]

/-- White space. -/
def isBlank (c : Char) : Bool :=
  inRanges blankRanges c

/-- Code points of the general category Connector_Punctuation. -/
def connectorRanges : List (Nat × Nat) :=
  [(0x5F, 0x5F), (0x203F, 0x2040), (0x2054, 0x2054), (0xFE33, 0xFE34), (0xFE4D, 0xFE4F),
    (0xFF3F, 0xFF3F)]

/-- Code points with the property Join_Control. -/
def joinRanges : List (Nat × Nat) :=
  [(0x200C, 0x200D)]

def isAscii (c : Char) : Bool :=
  c.toNat < 128

/-- Version 17.0 of the standard was the first to assign `c`. -/
def isNewest (c : Char) : Bool :=
  inRanges newestRanges c

/-- A decimal digit of any script. -/
def isDecimalDigit (c : Char) : Bool :=
  if isAscii c then c.isDigit else inRanges decimalDigitRanges c && !isNewest c

/-- A letter or a number of any script. -/
def isAlphanumeric (c : Char) : Bool :=
  if isAscii c then c.isAlphanum
  else inRanges alphabeticRanges c || inRanges decimalDigitRanges c || inRanges otherNumberRanges c

/-- A character of a word: letters, marks, decimal digits, connectors and joiners. -/
def isWord (c : Char) : Bool :=
  if isAscii c then c.isAlphanum || c == '_'
  else (inRanges alphabeticRanges c || inRanges markRanges c || inRanges decimalDigitRanges c ||
    inRanges connectorRanges c || inRanges joinRanges c) && !isNewest c

/-- A character of a database, collection or option name. -/
def isName (c : Char) : Bool :=
  isWord c || c == '-'

/-- A character of a field name in a SET clause. -/
def isFieldName (c : Char) : Bool :=
  isAlphanumeric c || c == '_' || c == '-'

end DocumentStore.Text
