
/-!
# Kinds of characters

A property of characters is given by a table of spans, each from a first to a last code point, both
included; long ones are written as runs of code points without and with the property.
-/

namespace SheetMill.Text

abbrev Spans := List (Nat × Nat)

/-- The spans after a code point by the lengths of the runs, in turn without and with the property. -/
def Spans.runsFrom (start : Nat) : List Nat → Spans
  | gap :: length :: rest =>
    (start + gap, start + gap + length - 1) :: runsFrom (start + gap + length) rest
  | _ => []

/-- The numbers that are packed in a word. Each hexadecimal digit, from the last one on, has three
bits of a number, and a fourth that says whether the number goes on. -/
def unpackFrom (value scale : Nat) : Nat → Nat → List Nat
  | 0, _ => []
  | fuel + 1, word =>
    if word = 0 then []
    else
      let value := value + word % 8 * scale
      if word % 16 < 8 then value :: unpackFrom 0 1 fuel (word / 16)
      else unpackFrom value (scale * 8) fuel (word / 16)

/-- The spans whose runs are packed in words of at most a hundred digits. -/
def Spans.packed (words : List Nat) : Spans := runsFrom 0 (words.flatMap (unpackFrom 0 1 100))

def Spans.covers (spans : Spans) (c : Char) : Bool :=
  spans.any fun (first, last) => first ≤ c.toNat && c.toNat ≤ last

/-! ## Blank characters

White space at the ends of a text, and the characters that end a line. -/

def blankSpans : Spans := [
  (9, 13), (28, 32), (133, 133), (160, 160), (5760, 5760), (8192, 8202), (8232, 8233),
  (8239, 8239), (8287, 8287), (12288, 12288)]

def isBlank (c : Char) : Bool := blankSpans.covers c

/-- Whether the character may stand around a number: white space but for the four separators of
files, groups, records and units. -/
def isNumberMargin (c : Char) : Bool := isBlank c && !(28 ≤ c.toNat && c.toNat ≤ 31)

def isLineEnd (c : Char) : Bool :=
  Spans.covers [(10, 13), (28, 30), (133, 133), (8232, 8233)] c

def stripChars (margin : Char → Bool) (cs : List Char) : List Char :=
  ((cs.dropWhile margin).reverse.dropWhile margin).reverse

def strip (s : String) : String := String.ofList (stripChars isBlank s.toList)

/-! ## Digits

A *numeral* is any character that stands for a number. A *digit* has the Unicode property of a
digit, such as a superscript two. A *decimal digit* also has a place value; these come in runs of
ten, so the zeros alone determine them. -/

def digitSpans : Spans := .runsFrom 0 [
  48, 10, 120, 2, 5, 1, 1446, 10, 134, 10, 198, 10, 412, 10, 118, 10, 118, 10, 118, 10, 118, 10,
  118, 10, 118, 10, 118, 10, 118, 10, 118, 10, 96, 10, 118, 10, 70, 10, 278, 10, 70, 10, 719, 9,
  1134, 10, 38, 10, 300, 10, 128, 11, 165, 10, 6, 10, 182, 10, 86, 10, 134, 10, 6, 10, 1046, 1, 3,
  6, 6, 10, 982, 9, 11, 9, 11, 9, 89, 1, 10, 9, 1, 1, 630, 9, 1, 9, 1, 9, 32397, 10, 678, 10, 38,
  10, 198, 10, 22, 10, 86, 10, 406, 10, 21270, 10, 1414, 10, 1430, 4, 748, 10, 294, 9, 489, 9, 11,
  10, 128, 10, 60, 10, 144, 10, 278, 10, 342, 10, 118, 10, 374, 10, 102, 10, 102, 10, 422, 10, 102,
  10, 758, 10, 246, 10, 70, 10, 19638, 10, 86, 10, 134, 10, 27764, 50, 2368, 10, 422, 10, 1622, 10,
  1958, 11, 2789, 10]

def decimalZeros : List Nat := [
  48, 1632, 1776, 1984, 2406, 2534, 2662, 2790, 2918, 3046, 3174, 3302, 3430, 3558, 3664, 3792,
  3872, 4160, 4240, 6112, 6160, 6470, 6608, 6784, 6800, 6992, 7088, 7232, 7248, 42528, 43216,
  43264, 43472, 43504, 43600, 44016, 65296, 66720, 68912, 69734, 69872, 69942, 70096, 70384,
  70736, 70864, 71248, 71360, 71472, 71904, 72016, 72784, 73040, 73120, 92768, 92864, 93008,
  120782, 120792, 120802, 120812, 120822, 123200, 123632, 125264, 130032]

def numeralSpans : Spans := .packed [
  0x12dd911911911a881191a19f1b191b191b1bbf526b4dae1a3ff31de91b28fe1a6e9192973b9728d31f865f864ced32fc,
  0x519b194f739182a8a528e11813d44c3b5ad229791c5d5cba965881a7a8ce1f4f1a481f1183e1a29a45af31e193911c99,
  0x28db2d1dab2b1dcf196de22d8d2c5fb1b29f71e845a1a2be2e5d9659a7591838181d8519b33e26c518c5e228222c862e,
  0x21f9d1f15d19c41317b1ec9191ad9e391dc2c6a9992f1cbe74bbdc1df]

def isNumeral (c : Char) : Bool := numeralSpans.covers c

def isDigit (c : Char) : Bool := digitSpans.covers c

/-- The value of a hexadecimal digit. -/
def hexValue? (c : Char) : Option Nat :=
  if '0' ≤ c ∧ c ≤ '9' then some (c.toNat - 48)
  else if 'a' ≤ c ∧ c ≤ 'f' then some (c.toNat - 87)
  else if 'A' ≤ c ∧ c ≤ 'F' then some (c.toNat - 55)
  else none

def decimalValue? (c : Char) : Option Nat :=
  (decimalZeros.find? fun start => start ≤ c.toNat && c.toNat ≤ start + 9).map (c.toNat - ·)

def isDecimal (c : Char) : Bool := (decimalValue? c).isSome

/-!
## Letters

The characters that count as letters in a cell reference are those of the Unicode general category
`L`.
-/

def letterSpans : Spans := .packed [
  0x1cb124b5b5d443b18f596124e12ce1829b11ab12c11131161142215289111751e1c479a13f12f51411a15f3a63a189,
  0x134311712e222184281f1a712a136e7a5a29613851b7392f13119142e514219493811b1b93d3e11281231a2721f11,
  0x6112911f3123e135121712e222181b12f21f12a135121712e131192832b1143f212121712e22461811a21e3121d128,
  0x32a5638318351281259131192921f2123f13511a12f13118413e221233a132812f131186c12e1c333232111234133,
  0x5b215114e2911c1d43723134462812c5b1eb53b4c1187f14842d1152119211a111381511127a71c21687a721119138,
  0x414b6c1f311d1e2a1e2b1d2a718619b53a129219dc3621ae28284d18b2417911f241117241492415924111724159d1,
  0x32161459325b71924c1a3594c3a5c1a21d3e6e18295f1bd11aa6d192f6e3a45c1b523e693f1a18e5114a2571b918b1,
  0x1455421b14111111653111a21411cd1d2811d11ec71351d46243713311716d23f1111111182624e2624ae18838851,
  0x1888286848291be15b5411ba1361ae42555a27ad11a8717171717171717192f281778215114e1c23463cd59fb26c,
  0x392f1a3c1b211367e6a1e6c3d2f14131283851112518821cf2196918e23f285f2c21a28349d25e18b5ba9d1881cf88,
  0x28c8c6942f1c2decc3d1eb61e15b171719626261c371b233811125223116a3132f2c18132f59151a1a152813c5f73d,
  0x21f1212b13a11c4b326262631b91b3a63a4c28f151ec1c586e21882a5db491dc1212111511d11a11551c74e1da25de,
  0x181a2e194ef18b21711f11b121711f11b1c6c185844c44c2a2be681844c23e1a4e61812c1d485f6933d68d1fb4a1e,
  0x2b1a2e1a6e3b3c1184b3d33d5a3d13141f1188267818e3a1a2e1a212b1893f192f1a2f213215c112618d1915a1638,
  0x2d41e681c134b181213d4c3a39485d1d122796d1c2f3b2d5e2a5a2e1811a3d19e265a5bc4c1d6b1d6b6f1991de2a1d,
  0x11d5b7b12c684c4595f2f81122c683e32c42a6d2be51c12a135121712e222184e5f71a11f1411171ac3912a4b111,
  0x71e83e691294d11948f1992a12b5e1b12d17581a13c111284f2181be1111f3812118212183f1881ec5c2f974d3b18f,
  0x2d3f428682a3e2919f293f718f928ef9198f7fa928df1f1c9599c38c3ce1eba19f12fd2b58f11e4812163912d4e121,
  0x1bdce1a71931d51db4c8c69c1842935d4cb12171429bcf195a2bae181bff83c1121881d18a1519b2881881ae82b5,
  0x1a5d7c93f3cec1813913f13913f13913f13913f13913925ac1731151413c17118241189171111c14222122118f11ad,
  0x141714211211111111112112131111114161111411a11211213b142aec1718c7b38d11f1214172bec5c2a3e5891287,
  0x19d9b2fca18be68bf1ece91e1ba8a23be7188f9481abbc818d8c29151352911a1114]

def isLetter (c : Char) : Bool := letterSpans.covers c

/-! ## Identifiers

A name is an identifier if it begins with a letter or an underscore and goes on with letters,
digits, combining marks and connectors. -/

def openerSpans : Spans := .packed [
  0x1df288da528e118179c6d5d9a81a7badb31e1939179fe424b6912d14aa926ac31ba9e11bf]

def brokenLetterSpans : Spans := .packed [
  0x24bf1111111111111111ec26ae61cf8de11fdfb11ff15af811dfa]

def joinerSpans : Spans := .packed [
  0x5b513119143811919491a1f1b1bb3b3e12f1a241226271cd163f681b198112121115d49953fb12f1e8199811fd1a68,
  0x3161a1a222c313118117831b131c2c133224511783211e1a221a1193222711783291a221a712a136e491385a187c3,
  0x221a11941317126f4281a221b274131711783291a221b2741317116f5281a1e119413357b12a1a221a37322271178,
  0x72313441c1a12c1cc1194c11b5212c6924111111b1a627e1a261b1a111af1a1181c18117d221a61811164118e3291a,
  0x2811e2e1a61b23d11a7957c1b2881a1a1c41c1ee129f1b13491a21194818823e23d33c41ec8191931aff1f11c1d43,
  0x481c8129d35ffe1c3141d1fb12b218ff18838e3216142d131ee1a61a182c681e5c1a21d3e31c19291a1b295f569,
  0x1c1e5f1a1a11b1a1f1e5f45c1d39183c1b1d2a61a1a2a6a21ab1452f141314a821a82481a4118d1a7ae8d21d9618da,
  0x2132daf1a4cd52ad13ca119bd21be14d1a388338232828281bc914fccc1a221183dc255591125223116a3491a22181,
  0x161c1aa1c14181e6831c15c251a11e4c361a5d171b5d41a221b3f1f6d31fa4691b2b925e91a18418fd22cd1435845,
  0x2cd1f3ea1a41f1ab1a181d1a91a1f291aa23b19273ad1a1c2c1a9141a192a388537221a11932227126f461a51c2c8,
  0x1a1851215681a181171211361fa1e12e781a28181186ad285e1b19118417581a3c137271ef1a1c21114221618e1a,
  0x6a46f18886a2e9932ac43e72181863518be2f25e199c924eadb21b11a9476f111fed1a3977b54e1a1ae1a4ddd94599,
  0x3e8388ac8e1a19aae1a571dd72fae1e7d15cc1a19748d51217229172da81f152e11e118]

def opensName (c : Char) : Bool :=
  openerSpans.covers c || isLetter c && !brokenLetterSpans.covers c

def continuesName (c : Char) : Bool := opensName c || joinerSpans.covers c

def isIdentifier (s : String) : Bool :=
  match s.toList with
  | [] => false
  | c :: cs => opensName c && cs.all continuesName

/-!
## Printable characters

The characters that a quoted text shows as they are: letters, marks, numerals, signs and the space.
-/

def signSpans : Spans := .packed [
  0x2925c12121115e3225963a825129b11e82511811ed29111751e1c479a13f12f13121111124121194a43a63a71a2848,
  0x11fa159139a141711fc1828a11fe21f911f81126228911a23bb15913f1f682443d81e122b11a11911ce419a3111b1a,
  0x1fa1b4c4132bd218f319e25c219dc11ce1a4f1919cc11bb219e61df1d1611878118f41111112c622f2cd21a11f119a,
  0x492951b53b1a12b21f18382921d31d31d31b3111bd911b1818827e57b41fd1b19292bb12861728823e4a2b82312f92,
  0x5e15f29f11e82141e63cd1d914821fc83e19ee2e19e1a91b391aaf427a11455421b14111111653111a214123b3143c,
  0x26f6f5baa81881cf885881f4f1a481f1183e1b3f3c4c481a422ac11ba1321bb352511f393451c3a3ae1c1b913a4a,
  0x29814fcfd11ff21e11d922821cc32f41fc2281d1c915f2691135821ae47a41a42bd21cf2192f1861eb11a41c8349d,
  0x16be16816ca5d5f131d1322979196c348a21d7171fa1b3a1143a71a1f2ad412b13338232e1a2845c11ff2a5fb29,
  0x121a56c911db61b83111d14419f26841fe4121dd72fd45c52cf11ca841b9718a74f119814e194a813f12ce23f11bcf,
  0x19189128d23d9fb25dfc529e811d3d3bc21a8d25a56be5131ab181bc12bb349813fb428a119c1d3c31d92f3fa11d81,
  0x3913f13913f13913f13913f13911dda1af2fa1318a2d7d43e722e357c24f1a3ee7c1ec19ae81214eaf9158f41da924,
  0x2ba61e271945c1d3d782c92f4d11f11f21f1c1cc45c49e278911fd1311d9c239be16df13b8b711e1186a46f18887c1,
  0x6f12ab197181861a1a651b33d197353521e1c5ac19e223e185861a187841c1f141c71b91c1ec31d32851fb8]

def isPrintable (c : Char) : Bool :=
  isLetter c || joinerSpans.covers c || isDigit c || isNumeral c || signSpans.covers c

/-! ## Quoted text -/

def hexDigit (n : Nat) : Char :=
  if n < 10 then Char.ofNat (48 + n) else Char.ofNat (87 + n)

def hexDigits (n : Nat) : Nat → List Char
  | 0 => []
  | width + 1 => hexDigits (n / 16) width ++ [hexDigit (n % 16)]

def codePointEscape (c : Char) : List Char :=
  let n := c.toNat
  if n < 0x100 then ['\\', 'x'] ++ hexDigits n 2
  else if n < 0x10000 then ['\\', 'u'] ++ hexDigits n 4
  else ['\\', 'U'] ++ hexDigits n 8

def quotedChar (mark : Char) (c : Char) : List Char :=
  if c = mark ∨ c = '\\' then ['\\', c]
  else if c = '\n' then ['\\', 'n']
  else if c = '\r' then ['\\', 'r']
  else if c = '\t' then ['\\', 't']
  else if isPrintable c then [c]
  else codePointEscape c

def quoteMark (cs : List Char) : Char :=
  if cs.contains '\'' && !cs.contains '"' then '"' else '\''

def quote (s : String) : String :=
  let cs := s.toList
  let mark := quoteMark cs
  String.ofList (mark :: cs.flatMap (quotedChar mark) ++ [mark])

end SheetMill.Text
