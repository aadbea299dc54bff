/-!
# Blank text

The white space characters, and texts that hold nothing else.
-/

namespace LogForwarder.Text

/-- Whether a character is white space: the tab to the carriage return, the space, and the
blanks and line ends beyond ASCII. -/
def isBlank (c : Char) : Bool :=
  let n := c.toNat
  (9 ≤ n && n ≤ 13) || n == 0x20 || n == 0x85 || n == 0xA0 || n == 0x1680 ||
    (0x2000 ≤ n && n ≤ 0x200A) || n == 0x2028 || n == 0x2029 || n == 0x202F || n == 0x205F ||
    n == 0x3000

/-- Whether a text is empty or holds nothing but white space. -/
def isBlankText (s : String) : Bool := s.toList.all isBlank

end LogForwarder.Text
