import ClassCensus.Text.Ranges

/-!
# ClassCensus.Text.Blank

White space: the characters that separate words, line breaks and the separators of every script
included.
-/

namespace ClassCensus
namespace Text

def blankRanges : Ranges :=
  [(0x9, 0xD), (0x1C, 0x20), (0x85, 0x85), (0xA0, 0xA0), (0x1680, 0x1680), (0x2000, 0x200A),
  (0x2028, 0x2029), (0x202F, 0x202F), (0x205F, 0x205F), (0x3000, 0x3000)]

def isBlank (c : Char) : Bool := blankRanges.has c.toNat

/-- Drops white space in front. -/
def trimLeft (t : Text) : Text := t.dropWhile isBlank

/-- Drops white space at both ends. -/
def trim (t : Text) : Text := trimSet isBlank t

end Text
end ClassCensus
