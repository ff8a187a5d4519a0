/-!
Names of common characters.  Listed are those of the first 256 characters, with the abbreviations and other
names of controls, of the Greek letters and of general punctuation.
-/
namespace PlanAssistant.Text

/-- Characters with these names follow one another. -/
def namesFrom (first : Nat) (names : List String) : List (String × Nat) := names.zipIdx first

/-! ### Controls -/

/-- The names of controls, and those of others that have a second name. -/
def controlNames : List (String × Nat) :=
  [ ("NULL", 0), ("NUL", 0), ("START OF HEADING", 1), ("SOH", 1), ("START OF TEXT", 2), ("STX", 2),
    ("END OF TEXT", 3), ("ETX", 3), ("END OF TRANSMISSION", 4), ("EOT", 4), ("ENQUIRY", 5), ("ENQ", 5),
    ("ACKNOWLEDGE", 6), ("ACK", 6), ("ALERT", 7), ("BEL", 7), ("BACKSPACE", 8), ("BS", 8),
    ("CHARACTER TABULATION", 9), ("HORIZONTAL TABULATION", 9), ("HT", 9), ("TAB", 9),
    ("LINE FEED", 10), ("NEW LINE", 10), ("END OF LINE", 10), ("EOL", 10), ("LF", 10), ("NL", 10),
    ("LINE TABULATION", 11), ("VERTICAL TABULATION", 11), ("VT", 11), ("FORM FEED", 12), ("FF", 12),
    ("CARRIAGE RETURN", 13), ("CR", 13), ("SHIFT OUT", 14), ("LOCKING-SHIFT ONE", 14), ("SO", 14),
    ("SHIFT IN", 15), ("LOCKING-SHIFT ZERO", 15), ("SI", 15), ("DATA LINK ESCAPE", 16), ("DLE", 16),
    ("DEVICE CONTROL ONE", 17), ("DC1", 17), ("DEVICE CONTROL TWO", 18), ("DC2", 18),
    ("DEVICE CONTROL THREE", 19), ("DC3", 19), ("DEVICE CONTROL FOUR", 20), ("DC4", 20),
    ("NEGATIVE ACKNOWLEDGE", 21), ("NAK", 21), ("SYNCHRONOUS IDLE", 22), ("SYN", 22),
    ("END OF TRANSMISSION BLOCK", 23), ("ETB", 23), ("CANCEL", 24), ("CAN", 24), ("END OF MEDIUM", 25),
    ("EOM", 25), ("SUBSTITUTE", 26), ("SUB", 26), ("ESCAPE", 27), ("ESC", 27),
    ("INFORMATION SEPARATOR FOUR", 28), ("FILE SEPARATOR", 28), ("FS", 28),
    ("INFORMATION SEPARATOR THREE", 29), ("GROUP SEPARATOR", 29), ("GS", 29),
    ("INFORMATION SEPARATOR TWO", 30), ("RECORD SEPARATOR", 30), ("RS", 30),
    ("INFORMATION SEPARATOR ONE", 31), ("UNIT SEPARATOR", 31), ("US", 31), ("SP", 32), ("DELETE", 127),
    ("DEL", 127), ("PADDING CHARACTER", 128), ("PAD", 128), ("HIGH OCTET PRESET", 129), ("HOP", 129),
    ("BREAK PERMITTED HERE", 130), ("BPH", 130), ("NO BREAK HERE", 131), ("NBH", 131), ("INDEX", 132),
    ("IND", 132), ("NEXT LINE", 133), ("NEL", 133), ("START OF SELECTED AREA", 134), ("SSA", 134),
    ("END OF SELECTED AREA", 135), ("ESA", 135), ("CHARACTER TABULATION SET", 136),
    ("HORIZONTAL TABULATION SET", 136), ("HTS", 136), ("CHARACTER TABULATION WITH JUSTIFICATION", 137),
    ("HORIZONTAL TABULATION WITH JUSTIFICATION", 137), ("HTJ", 137), ("LINE TABULATION SET", 138),
    ("VERTICAL TABULATION SET", 138), ("VTS", 138), ("PARTIAL LINE FORWARD", 139),
    ("PARTIAL LINE DOWN", 139), ("PLD", 139), ("PARTIAL LINE BACKWARD", 140), ("PARTIAL LINE UP", 140),
    ("PLU", 140), ("REVERSE LINE FEED", 141), ("REVERSE INDEX", 141), ("RI", 141),
    ("SINGLE SHIFT TWO", 142), ("SINGLE-SHIFT-2", 142), ("SS2", 142), ("SINGLE SHIFT THREE", 143),
    ("SINGLE-SHIFT-3", 143), ("SS3", 143), ("DEVICE CONTROL STRING", 144), ("DCS", 144),
    ("PRIVATE USE ONE", 145), ("PRIVATE USE-1", 145), ("PU1", 145), ("PRIVATE USE TWO", 146),
    ("PRIVATE USE-2", 146), ("PU2", 146), ("SET TRANSMIT STATE", 147), ("STS", 147),
    ("CANCEL CHARACTER", 148), ("CCH", 148), ("MESSAGE WAITING", 149), ("MW", 149),
    ("START OF GUARDED AREA", 150), ("START OF PROTECTED AREA", 150), ("SPA", 150),
    ("END OF GUARDED AREA", 151), ("END OF PROTECTED AREA", 151), ("EPA", 151),
    ("START OF STRING", 152), ("SOS", 152), ("SINGLE GRAPHIC CHARACTER INTRODUCER", 153), ("SGC", 153),
    ("SINGLE CHARACTER INTRODUCER", 154), ("SCI", 154), ("CONTROL SEQUENCE INTRODUCER", 155),
    ("CSI", 155), ("STRING TERMINATOR", 156), ("ST", 156), ("OPERATING SYSTEM COMMAND", 157),
    ("OSC", 157), ("PRIVACY MESSAGE", 158), ("PM", 158), ("APPLICATION PROGRAM COMMAND", 159),
    ("APC", 159), ("NBSP", 160), ("SHY", 173) ]

/-! ### Latin -/

def latinLetters : List String :=
  [ "A", "B", "C", "D", "E", "F", "G", "H", "I", "J", "K", "L", "M", "N", "O", "P", "Q", "R", "S", "T",
    "U", "V", "W", "X", "Y", "Z" ]

def asciiNames : List (String × Nat) :=
  namesFrom 32
    [ "SPACE", "EXCLAMATION MARK", "QUOTATION MARK", "NUMBER SIGN", "DOLLAR SIGN", "PERCENT SIGN",
      "AMPERSAND", "APOSTROPHE", "LEFT PARENTHESIS", "RIGHT PARENTHESIS", "ASTERISK", "PLUS SIGN",
      "COMMA", "HYPHEN-MINUS", "FULL STOP", "SOLIDUS", "DIGIT ZERO", "DIGIT ONE", "DIGIT TWO",
      "DIGIT THREE", "DIGIT FOUR", "DIGIT FIVE", "DIGIT SIX", "DIGIT SEVEN", "DIGIT EIGHT",
      "DIGIT NINE", "COLON", "SEMICOLON", "LESS-THAN SIGN", "EQUALS SIGN", "GREATER-THAN SIGN",
      "QUESTION MARK", "COMMERCIAL AT" ] ++
  namesFrom 65 (latinLetters.map ("LATIN CAPITAL LETTER " ++ ·)) ++
  namesFrom 91
    [ "LEFT SQUARE BRACKET", "REVERSE SOLIDUS", "RIGHT SQUARE BRACKET", "CIRCUMFLEX ACCENT",
      "LOW LINE", "GRAVE ACCENT" ] ++
  namesFrom 97 (latinLetters.map ("LATIN SMALL LETTER " ++ ·)) ++
  namesFrom 123 ["LEFT CURLY BRACKET", "VERTICAL LINE", "RIGHT CURLY BRACKET", "TILDE"]

def accentedLetters : List String :=
  [ "A WITH GRAVE", "A WITH ACUTE", "A WITH CIRCUMFLEX", "A WITH TILDE", "A WITH DIAERESIS",
    "A WITH RING ABOVE", "AE", "C WITH CEDILLA", "E WITH GRAVE", "E WITH ACUTE", "E WITH CIRCUMFLEX",
    "E WITH DIAERESIS", "I WITH GRAVE", "I WITH ACUTE", "I WITH CIRCUMFLEX", "I WITH DIAERESIS", "ETH",
    "N WITH TILDE", "O WITH GRAVE", "O WITH ACUTE", "O WITH CIRCUMFLEX", "O WITH TILDE",
    "O WITH DIAERESIS" ]

def laterAccentedLetters : List String :=
  [ "O WITH STROKE", "U WITH GRAVE", "U WITH ACUTE", "U WITH CIRCUMFLEX", "U WITH DIAERESIS",
    "Y WITH ACUTE", "THORN" ]

def latinNames : List (String × Nat) :=
  namesFrom 160
    [ "NO-BREAK SPACE", "INVERTED EXCLAMATION MARK", "CENT SIGN", "POUND SIGN", "CURRENCY SIGN",
      "YEN SIGN", "BROKEN BAR", "SECTION SIGN", "DIAERESIS", "COPYRIGHT SIGN",
      "FEMININE ORDINAL INDICATOR", "LEFT-POINTING DOUBLE ANGLE QUOTATION MARK", "NOT SIGN",
      "SOFT HYPHEN", "REGISTERED SIGN", "MACRON", "DEGREE SIGN", "PLUS-MINUS SIGN", "SUPERSCRIPT TWO",
      "SUPERSCRIPT THREE", "ACUTE ACCENT", "MICRO SIGN", "PILCROW SIGN", "MIDDLE DOT", "CEDILLA",
      "SUPERSCRIPT ONE", "MASCULINE ORDINAL INDICATOR", "RIGHT-POINTING DOUBLE ANGLE QUOTATION MARK",
      "VULGAR FRACTION ONE QUARTER", "VULGAR FRACTION ONE HALF", "VULGAR FRACTION THREE QUARTERS",
      "INVERTED QUESTION MARK" ] ++
  namesFrom 192 (accentedLetters.map ("LATIN CAPITAL LETTER " ++ ·) ++ ["MULTIPLICATION SIGN"] ++
    laterAccentedLetters.map ("LATIN CAPITAL LETTER " ++ ·) ++ ["LATIN SMALL LETTER SHARP S"]) ++
  namesFrom 224 (accentedLetters.map ("LATIN SMALL LETTER " ++ ·) ++ ["DIVISION SIGN"] ++
    laterAccentedLetters.map ("LATIN SMALL LETTER " ++ ·) ++ ["LATIN SMALL LETTER Y WITH DIAERESIS"])

/-! ### Greek and punctuation -/

def greekLetters : List String :=
  [ "ALPHA", "BETA", "GAMMA", "DELTA", "EPSILON", "ZETA", "ETA", "THETA", "IOTA", "KAPPA", "LAMDA",
    "MU", "NU", "XI", "OMICRON", "PI", "RHO", "FINAL SIGMA", "SIGMA", "TAU", "UPSILON", "PHI", "CHI",
    "PSI", "OMEGA" ]

/-- There is no capital of the sigma that ends words. -/
def greekNames : List (String × Nat) :=
  ((namesFrom 0x391 greekLetters).filter (·.2 != 0x3A2)).map (fun (name, code) =>
    ("GREEK CAPITAL LETTER " ++ name, code)) ++
  namesFrom 0x3B1 (greekLetters.map ("GREEK SMALL LETTER " ++ ·))

def punctuationNames : List (String × Nat) :=
  namesFrom 0x2000
    [ "EN QUAD", "EM QUAD", "EN SPACE", "EM SPACE", "THREE-PER-EM SPACE", "FOUR-PER-EM SPACE",
      "SIX-PER-EM SPACE", "FIGURE SPACE", "PUNCTUATION SPACE", "THIN SPACE", "HAIR SPACE",
      "ZERO WIDTH SPACE", "ZERO WIDTH NON-JOINER", "ZERO WIDTH JOINER", "LEFT-TO-RIGHT MARK",
      "RIGHT-TO-LEFT MARK", "HYPHEN", "NON-BREAKING HYPHEN", "FIGURE DASH", "EN DASH", "EM DASH",
      "HORIZONTAL BAR", "DOUBLE VERTICAL LINE", "DOUBLE LOW LINE", "LEFT SINGLE QUOTATION MARK",
      "RIGHT SINGLE QUOTATION MARK", "SINGLE LOW-9 QUOTATION MARK",
      "SINGLE HIGH-REVERSED-9 QUOTATION MARK", "LEFT DOUBLE QUOTATION MARK",
      "RIGHT DOUBLE QUOTATION MARK", "DOUBLE LOW-9 QUOTATION MARK",
      "DOUBLE HIGH-REVERSED-9 QUOTATION MARK", "DAGGER", "DOUBLE DAGGER", "BULLET",
      "TRIANGULAR BULLET", "ONE DOT LEADER", "TWO DOT LEADER", "HORIZONTAL ELLIPSIS",
      "HYPHENATION POINT", "LINE SEPARATOR", "PARAGRAPH SEPARATOR", "LEFT-TO-RIGHT EMBEDDING",
      "RIGHT-TO-LEFT EMBEDDING", "POP DIRECTIONAL FORMATTING", "LEFT-TO-RIGHT OVERRIDE",
      "RIGHT-TO-LEFT OVERRIDE", "NARROW NO-BREAK SPACE", "PER MILLE SIGN", "PER TEN THOUSAND SIGN",
      "PRIME", "DOUBLE PRIME", "TRIPLE PRIME", "REVERSED PRIME", "REVERSED DOUBLE PRIME",
      "REVERSED TRIPLE PRIME", "CARET", "SINGLE LEFT-POINTING ANGLE QUOTATION MARK",
      "SINGLE RIGHT-POINTING ANGLE QUOTATION MARK", "REFERENCE MARK", "DOUBLE EXCLAMATION MARK",
      "INTERROBANG", "OVERLINE", "UNDERTIE", "CHARACTER TIE", "CARET INSERTION POINT", "ASTERISM",
      "HYPHEN BULLET", "FRACTION SLASH", "LEFT SQUARE BRACKET WITH QUILL",
      "RIGHT SQUARE BRACKET WITH QUILL", "DOUBLE QUESTION MARK", "QUESTION EXCLAMATION MARK",
      "EXCLAMATION QUESTION MARK", "TIRONIAN SIGN ET", "REVERSED PILCROW SIGN",
      "BLACK LEFTWARDS BULLET", "BLACK RIGHTWARDS BULLET", "LOW ASTERISK", "REVERSED SEMICOLON",
      "CLOSE UP", "TWO ASTERISKS ALIGNED VERTICALLY", "COMMERCIAL MINUS SIGN", "SWUNG DASH",
      "INVERTED UNDERTIE", "FLOWER PUNCTUATION MARK", "THREE DOT PUNCTUATION", "QUADRUPLE PRIME",
      "FOUR DOT PUNCTUATION", "FIVE DOT PUNCTUATION", "TWO DOT PUNCTUATION", "FOUR DOT MARK",
      "DOTTED CROSS", "TRICOLON", "VERTICAL FOUR DOTS", "MEDIUM MATHEMATICAL SPACE", "WORD JOINER",
      "FUNCTION APPLICATION", "INVISIBLE TIMES", "INVISIBLE SEPARATOR", "INVISIBLE PLUS" ]

/-- The names of common characters. -/
def commonNames : List (String × Nat) :=
  controlNames ++ asciiNames ++ latinNames ++ greekNames ++ punctuationNames

end PlanAssistant.Text
