import Frontend.Unicode.Letter
import Frontend.Unicode.DecimalDigit
import Frontend.Unicode.Unprintable
import Frontend.Unicode.Extending

/-!
# Character classes

The four character classes that the front end asks about. ASCII is answered directly and the
rest of Unicode from the tables, so that what a proof needs of ASCII does not go through them.

The tables are not of one version of Unicode. Letters, which make up words, are those of Unicode
18.0; what a quoted text shows of a character is settled by Unicode 17.0. A letter that is new in
18.0 may stand in a word, then, and is escaped where the word is quoted. What is proved of all texts
holds for any tables, so another version is a change of the tables alone.
-/

namespace Frontend.Unicode

/-- Whether one of the ranges holds the code point. -/
def inRanges (ranges : List (Nat × Nat)) (point : Nat) : Bool :=
  ranges.any fun range => range.1 ≤ point && point ≤ range.2

/-- A letter: one of the general categories `Lu`, `Ll`, `Lt`, `Lm` and `Lo`. -/
def isLetter (c : Char) : Bool :=
  if c.toNat < 128 then c.isAlpha else inRanges letterRanges c.toNat

/-- A decimal digit of any script: the general category `Nd`. -/
def isDecimalDigit (c : Char) : Bool :=
  if c.toNat < 128 then c.isDigit else inRanges decimalDigitRanges c.toNat

/-- A character that is shown as it is: neither a control nor a separator other than the space,
and assigned to public use. -/
def isPrintable (c : Char) : Bool :=
  if c.toNat < 128 then 32 ≤ c.toNat && c.toNat < 127 else !inRanges unprintableRanges c.toNat

/-- A character that attaches to the one before it. No ASCII character does. -/
def isExtending (c : Char) : Bool :=
  !(c.toNat < 128) && inRanges extendingRanges c.toNat

end Frontend.Unicode
