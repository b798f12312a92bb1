/-!
# Text cut to a number of bytes

A field of fixed length keeps the first bytes of a text. A character that does not fit as a whole
leaves some of its bytes, which are no text of their own: they are read as one replacement
character. Text that fits is kept as it is.
-/

namespace SourceFilter.Text

/-- What is read for the bytes of a character of which others are missing. -/
def replacementChar : Char := '\uFFFD'

/-- What is read from the first bytes of a text, so many of them. -/
def cutBytes : Nat → List Char → List Char
  | _, [] => []
  | room, c :: rest =>
    if c.utf8Size ≤ room then c :: cutBytes (room - c.utf8Size) rest
    else if room = 0 then []
    else [replacementChar]

end SourceFilter.Text
