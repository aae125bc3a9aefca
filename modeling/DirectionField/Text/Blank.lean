/-! # Blank characters

A blank is a character that separates tokens and is trimmed from the ends of an input field: the
characters with Unicode's white-space property and the four ASCII information separators. -/

namespace DirectionField.Text

/-- The blank characters outside ASCII. -/
def wideBlanks : List Nat :=
  [0x85, 0xa0, 0x1680, 0x2000, 0x2001, 0x2002, 0x2003, 0x2004, 0x2005, 0x2006, 0x2007, 0x2008,
   0x2009, 0x200a, 0x2028, 0x2029, 0x202f, 0x205f, 0x3000]

/-- Is the character a tab, a line or page break, or a space of ASCII? -/
def isPlainBlank (c : Char) : Bool := c.toNat == 0x20 || (0x09 ≤ c.toNat && c.toNat ≤ 0x0d)

/-- Is the character a blank outside ASCII? -/
def isWideBlank (c : Char) : Bool := wideBlanks.contains c.toNat

/-- Is the character a blank? -/
def isBlank (c : Char) : Bool :=
  isPlainBlank c || (0x1c ≤ c.toNat && c.toNat ≤ 0x1f) || isWideBlank c

/-- Drop the characters of a class from both ends. -/
def trimBy (p : Char → Bool) (cs : List Char) : List Char :=
  ((cs.dropWhile p).reverse.dropWhile p).reverse

/-- Drop the blanks from both ends of a text. -/
def trim (s : String) : String := String.ofList (trimBy isBlank s.toList)

/-- Drop the blanks at the end of a text. -/
def trimEnd (s : String) : String :=
  String.ofList (s.toList.reverse.dropWhile isBlank).reverse

end DirectionField.Text
