/-!
# Names of characters

A character may be called by its name in the Unicode Character Database. The database is a parameter of whatever asks for
names; `characterNamed` is the part of it that is kept here: the printing characters of ASCII and Latin-1, and the common
signs of punctuation, currencies, arrows and mathematics.
-/

namespace Workflow

/-- The character of a name, in any letter case. -/
abbrev CharacterNames := String → Option Char

def signNames : List (String × Nat) := [
    ("SPACE", 32), ("EXCLAMATION MARK", 33), ("QUOTATION MARK", 34), ("NUMBER SIGN", 35), ("DOLLAR SIGN", 36),
    ("PERCENT SIGN", 37), ("AMPERSAND", 38), ("APOSTROPHE", 39), ("LEFT PARENTHESIS", 40),
    ("RIGHT PARENTHESIS", 41), ("ASTERISK", 42), ("PLUS SIGN", 43), ("COMMA", 44), ("HYPHEN-MINUS", 45),
    ("FULL STOP", 46), ("SOLIDUS", 47), ("DIGIT ZERO", 48), ("DIGIT ONE", 49), ("DIGIT TWO", 50),
    ("DIGIT THREE", 51), ("DIGIT FOUR", 52), ("DIGIT FIVE", 53), ("DIGIT SIX", 54), ("DIGIT SEVEN", 55),
    ("DIGIT EIGHT", 56), ("DIGIT NINE", 57), ("COLON", 58), ("SEMICOLON", 59), ("LESS-THAN SIGN", 60),
    ("EQUALS SIGN", 61), ("GREATER-THAN SIGN", 62), ("QUESTION MARK", 63), ("COMMERCIAL AT", 64),
    ("LEFT SQUARE BRACKET", 91), ("REVERSE SOLIDUS", 92), ("RIGHT SQUARE BRACKET", 93), ("CIRCUMFLEX ACCENT", 94),
    ("LOW LINE", 95), ("GRAVE ACCENT", 96), ("LEFT CURLY BRACKET", 123), ("VERTICAL LINE", 124),
    ("RIGHT CURLY BRACKET", 125), ("TILDE", 126), ("NO-BREAK SPACE", 160), ("INVERTED EXCLAMATION MARK", 161),
    ("CENT SIGN", 162), ("POUND SIGN", 163), ("CURRENCY SIGN", 164), ("YEN SIGN", 165), ("BROKEN BAR", 166),
    ("SECTION SIGN", 167), ("DIAERESIS", 168), ("COPYRIGHT SIGN", 169), ("FEMININE ORDINAL INDICATOR", 170),
    ("LEFT-POINTING DOUBLE ANGLE QUOTATION MARK", 171), ("NOT SIGN", 172), ("SOFT HYPHEN", 173),
    ("REGISTERED SIGN", 174), ("MACRON", 175), ("DEGREE SIGN", 176), ("PLUS-MINUS SIGN", 177),
    ("SUPERSCRIPT TWO", 178), ("SUPERSCRIPT THREE", 179), ("ACUTE ACCENT", 180), ("MICRO SIGN", 181),
    ("PILCROW SIGN", 182), ("MIDDLE DOT", 183), ("CEDILLA", 184), ("SUPERSCRIPT ONE", 185),
    ("MASCULINE ORDINAL INDICATOR", 186), ("RIGHT-POINTING DOUBLE ANGLE QUOTATION MARK", 187),
    ("VULGAR FRACTION ONE QUARTER", 188), ("VULGAR FRACTION ONE HALF", 189),
    ("VULGAR FRACTION THREE QUARTERS", 190), ("INVERTED QUESTION MARK", 191), ("LATIN CAPITAL LETTER AE", 198),
    ("LATIN CAPITAL LETTER ETH", 208), ("MULTIPLICATION SIGN", 215), ("LATIN CAPITAL LETTER THORN", 222),
    ("LATIN SMALL LETTER SHARP S", 223), ("LATIN SMALL LETTER AE", 230), ("LATIN SMALL LETTER ETH", 240),
    ("DIVISION SIGN", 247), ("LATIN SMALL LETTER THORN", 254), ("HYPHEN", 8208), ("NON-BREAKING HYPHEN", 8209),
    ("FIGURE DASH", 8210), ("EN DASH", 8211), ("EM DASH", 8212), ("HORIZONTAL BAR", 8213),
    ("LEFT SINGLE QUOTATION MARK", 8216), ("RIGHT SINGLE QUOTATION MARK", 8217),
    ("SINGLE LOW-9 QUOTATION MARK", 8218), ("LEFT DOUBLE QUOTATION MARK", 8220),
    ("RIGHT DOUBLE QUOTATION MARK", 8221), ("DOUBLE LOW-9 QUOTATION MARK", 8222), ("DAGGER", 8224),
    ("DOUBLE DAGGER", 8225), ("BULLET", 8226), ("HORIZONTAL ELLIPSIS", 8230), ("PER MILLE SIGN", 8240),
    ("PRIME", 8242), ("DOUBLE PRIME", 8243), ("SINGLE LEFT-POINTING ANGLE QUOTATION MARK", 8249),
    ("SINGLE RIGHT-POINTING ANGLE QUOTATION MARK", 8250), ("FRACTION SLASH", 8260), ("EN SPACE", 8194),
    ("EM SPACE", 8195), ("THIN SPACE", 8201), ("ZERO WIDTH SPACE", 8203), ("ZERO WIDTH NON-JOINER", 8204),
    ("ZERO WIDTH JOINER", 8205), ("NARROW NO-BREAK SPACE", 8239), ("WORD JOINER", 8288),
    ("ZERO WIDTH NO-BREAK SPACE", 65279), ("EURO SIGN", 8364), ("BITCOIN SIGN", 8383), ("NUMERO SIGN", 8470),
    ("TRADE MARK SIGN", 8482), ("LEFTWARDS ARROW", 8592), ("UPWARDS ARROW", 8593), ("RIGHTWARDS ARROW", 8594),
    ("DOWNWARDS ARROW", 8595), ("LEFT RIGHT ARROW", 8596), ("RIGHTWARDS DOUBLE ARROW", 8658),
    ("LEFT RIGHT DOUBLE ARROW", 8660), ("FOR ALL", 8704), ("THERE EXISTS", 8707), ("EMPTY SET", 8709),
    ("ELEMENT OF", 8712), ("MINUS SIGN", 8722), ("N-ARY SUMMATION", 8721), ("SQUARE ROOT", 8730),
    ("INFINITY", 8734), ("LOGICAL AND", 8743), ("LOGICAL OR", 8744), ("INTERSECTION", 8745), ("UNION", 8746),
    ("ALMOST EQUAL TO", 8776), ("NOT EQUAL TO", 8800), ("LESS-THAN OR EQUAL TO", 8804),
    ("GREATER-THAN OR EQUAL TO", 8805), ("SNOWMAN", 9731), ("BLACK STAR", 9733), ("WHITE STAR", 9734),
    ("BALLOT BOX", 9744), ("BALLOT BOX WITH CHECK", 9745), ("BALLOT BOX WITH X", 9746), ("CHECK MARK", 10003),
    ("HEAVY CHECK MARK", 10004), ("BALLOT X", 10007), ("HEAVY BLACK HEART", 10084),
    ("REPLACEMENT CHARACTER", 65533)]

def accentNames : List (String × List (Char × Nat)) := [
    ("GRAVE", [('A', 192), ('E', 200), ('I', 204), ('O', 210), ('U', 217), ('a', 224), ('e', 232), ('i', 236), ('o', 242), ('u', 249)]),
    ("ACUTE", [('A', 193), ('E', 201), ('I', 205), ('O', 211), ('U', 218), ('Y', 221), ('a', 225), ('e', 233), ('i', 237), ('o', 243), ('u', 250), ('y', 253)]),
    ("CIRCUMFLEX", [('A', 194), ('E', 202), ('I', 206), ('O', 212), ('U', 219), ('a', 226), ('e', 234), ('i', 238), ('o', 244), ('u', 251)]),
    ("TILDE", [('A', 195), ('N', 209), ('O', 213), ('a', 227), ('n', 241), ('o', 245)]),
    ("DIAERESIS", [('A', 196), ('E', 203), ('I', 207), ('O', 214), ('U', 220), ('a', 228), ('e', 235), ('i', 239), ('o', 246), ('u', 252), ('y', 255)]),
    ("RING ABOVE", [('A', 197), ('a', 229)]),
    ("CEDILLA", [('C', 199), ('c', 231)]),
    ("STROKE", [('O', 216), ('o', 248)])]

/-- The letter of ASCII that a name ends in, and its accent. -/
def letterNamed? (name : String) : Option Char :=
  let letter (small : Bool) (rest : List Char) : Option Char :=
    match rest with
    | c :: accent =>
      let c := if small then c.toLower else c
      if !c.isAlpha then none
      else if accent = [] then some c
      else
        accentNames.findSome? fun (a, letters) =>
          if accent = (" WITH " ++ a).toList then (letters.lookup c).map Char.ofNat else none
    | [] => none
  let cs := name.toList
  let capital := "LATIN CAPITAL LETTER ".toList
  let small := "LATIN SMALL LETTER ".toList
  if capital.isPrefixOf cs then letter false (cs.drop capital.length)
  else if small.isPrefixOf cs then letter true (cs.drop small.length)
  else none

def characterNamed : CharacterNames := fun name =>
  let name := name.toUpper
  ((signNames.lookup name).map Char.ofNat).or (letterNamed? name)

end Workflow
