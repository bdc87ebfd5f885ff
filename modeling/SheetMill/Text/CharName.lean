import SheetMill.Text.Search

/-!
# Names of characters

The characters of ASCII by the names that the Unicode standard gives them.
-/

namespace SheetMill.Text

def pieces (table : String) : List String := (split table '\n').flatMap (split · ';')

/-- Runs of characters, each by the code point of the first one, what all their names begin with,
and how each of them goes on. -/
def nameRuns : List (Nat × String × String) := [
  (32, "", "SPACE;EXCLAMATION MARK;QUOTATION MARK;NUMBER SIGN;DOLLAR SIGN;PERCENT SIGN;AMPERSAND
APOSTROPHE;LEFT PARENTHESIS;RIGHT PARENTHESIS;ASTERISK;PLUS SIGN;COMMA;HYPHEN-MINUS;FULL STOP
SOLIDUS"),
  (48, "DIGIT ", "ZERO;ONE;TWO;THREE;FOUR;FIVE;SIX;SEVEN;EIGHT;NINE"),
  (58, "", "COLON;SEMICOLON;LESS-THAN SIGN;EQUALS SIGN;GREATER-THAN SIGN;QUESTION MARK
COMMERCIAL AT"),
  (65, "LATIN CAPITAL LETTER ", letters),
  (91, "", "LEFT SQUARE BRACKET;REVERSE SOLIDUS;RIGHT SQUARE BRACKET;CIRCUMFLEX ACCENT;LOW LINE
GRAVE ACCENT"),
  (97, "LATIN SMALL LETTER ", letters),
  (123, "", "LEFT CURLY BRACKET;VERTICAL LINE;RIGHT CURLY BRACKET;TILDE")]
where
  letters := "A;B;C;D;E;F;G;H;I;J;K;L;M;N;O;P;Q;R;S;T;U;V;W;X;Y;Z"

/-- Other names of blank and control characters. -/
def aliases : List (Nat × String) := [
  (0, "NUL;NULL"), (9, "CHARACTER TABULATION;HORIZONTAL TABULATION;HT;TAB"),
  (10, "END OF LINE;EOL;LF;LINE FEED;NEW LINE;NL"), (13, "CARRIAGE RETURN;CR"), (27, "ESC;ESCAPE"),
  (32, "SP"), (127, "DEL;DELETE")]

def placeAfter? (lead names name : String) : Option Nat := do
  let rest ← dropPart? lead.toList name.toList
  (pieces names).idxOf? (String.ofList rest)

def charNamed? (name : String) : Option Nat :=
  let upper := name.toUpper
  (nameRuns.findSome? fun (first, lead, names) => (placeAfter? lead names upper).map (first + ·)) <|>
    (aliases.find? fun (_, names) => (split names ';').contains upper).map Prod.fst

end SheetMill.Text
