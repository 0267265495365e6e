import RosInterface.Toml.Value

/-! # Words in TOML

A value without quotes and brackets is one word: a truth value, a number, or a moment, which is a
date, a time of day, or both. No setting is a number or a moment, so these only have to be written
properly; their values are never needed.
-/

namespace RosInterface.Toml

/-- A step of reading: what was read, and the input behind it. -/
abbrev Read (α : Type) :=
  List Char → Option (α × List Char)

/-- The value of a hexadecimal digit. -/
def hexValue? (c : Char) : Option Nat :=
  if c.isDigit then some (c.toNat - '0'.toNat)
  else if 'a' ≤ c && c ≤ 'f' then some (c.toNat - 'a'.toNat + 10)
  else if 'A' ≤ c && c ≤ 'F' then some (c.toNat - 'A'.toNat + 10)
  else none

/-- Whether a character is a digit to a base of at most sixteen. -/
def isDigitTo (base : Nat) (c : Char) : Bool :=
  (hexValue? c).any (· < base)

/-! ## Numbers -/

/-- Whether every underscore stands between two digits, where `behindDigit` says whether a digit
stands in front of the text. -/
def separatesBehind (isDigit : Char → Bool) : Bool → List Char → Bool
  | _, [] => true
  | behindDigit, '_' :: rest =>
    behindDigit && rest.head?.any isDigit && separatesBehind isDigit false rest
  | _, c :: rest => separatesBehind isDigit (isDigit c) rest

/-- Whether every underscore stands between two digits. -/
def separates (isDigit : Char → Bool) (text : List Char) : Bool :=
  separatesBehind isDigit false text

/-- Whether these are the digits behind the mark of a base. There may be none. -/
def isBased (base : Nat) (digits : List Char) : Bool :=
  digits.all (fun c => isDigitTo base c || c == '_') && separates (isDigitTo base) digits

/-- Whether a character belongs to the digits of a decimal number. -/
def isNumeral (c : Char) : Bool :=
  c.isDigit || c == '_'

/-- The input behind digits, of which there has to be one. -/
def afterDigits? (input : List Char) : Option (List Char) :=
  if (input.takeWhile isNumeral).any Char.isDigit then some (input.dropWhile isNumeral) else none

/-- The input behind a point and digits, if a point comes next. -/
def afterFraction? : List Char → Option (List Char)
  | '.' :: rest => afterDigits? rest
  | input => some input

/-- The input behind a sign, if one comes next. -/
def skipSign : List Char → List Char
  | '+' :: rest => rest
  | '-' :: rest => rest
  | input => input

/-- The input behind an exponent, if one comes next. -/
def afterExponent? : List Char → Option (List Char)
  | 'e' :: rest => afterDigits? (skipSign rest)
  | 'E' :: rest => afterDigits? (skipSign rest)
  | input => some input

/-- Whether a zero comes first among several digits. -/
def hasLeadingZero (digits : List Char) : Bool :=
  digits.head? == some '0' && 1 < (digits.takeWhile isNumeral).countP Char.isDigit

/-- Whether this is a decimal number with a fraction or an exponent, behind its sign. -/
def isFloat (body : List Char) : Bool :=
  let rest := ((afterDigits? body).bind afterFraction?).bind afterExponent?
  rest == some [] && !hasLeadingZero body && separates Char.isDigit body

/-- Whether this is a whole decimal number, behind its sign. What comes behind the first underscore
matters only to the value, unless it is a space. -/
def isWhole (body : List Char) : Bool :=
  match body.dropWhile Char.isDigit with
  | [] => !body.isEmpty && (body.length == 1 || body.head? != some '0')
  | '_' :: rest =>
    body.head? != some '0' && !rest.contains ' ' && separates (isDigitTo 16) body
  | _ => false

/-- Whether this is a decimal number, behind its sign. -/
def isDecimal (body : List Char) : Bool :=
  body == ['i', 'n', 'f'] || body == ['n', 'a', 'n'] ||
    if body.any fun c => c == '.' || c == 'e' || c == 'E' then isFloat body
    else isWhole body

/-- Whether a word is a number. Only decimal numbers have a sign. -/
def isNumber : List Char → Bool
  | '0' :: 'x' :: digits => isBased 16 digits
  | '0' :: 'o' :: digits => isBased 8 digits
  | '0' :: 'b' :: digits => isBased 2 digits
  | '+' :: body => isDecimal body
  | '-' :: body => isDecimal body
  | body => isDecimal body

/-! ## Moments -/

/-- Reads a number of so many decimal digits, in addition to earlier ones. -/
def readDigits : Nat → Nat → Read Nat
  | 0, number, input => some (number, input)
  | count + 1, number, c :: rest =>
    if c.isDigit then readDigits count (10 * number + (c.toNat - '0'.toNat)) rest else none
  | _ + 1, _, [] => none

/-- Reads a two-digit number with a mark in front of it. -/
def readBehind (mark : Char) : Read Nat
  | [] => none
  | c :: rest => if c = mark then readDigits 2 0 rest else none

/-- Whether a year has a leap day. -/
def isLeapYear (year : Nat) : Bool :=
  year % 4 == 0 && (year % 100 != 0 || year % 400 == 0)

/-- The number of days in a month. -/
def daysIn (year month : Nat) : Nat :=
  match month with
  | 2 => if isLeapYear year then 29 else 28
  | 4 | 6 | 9 | 11 => 30
  | _ => 31

/-- The input behind a date. -/
def afterDate? (input : List Char) : Option (List Char) := do
  let (year, rest) ← readDigits 4 0 input
  let (month, rest) ← readBehind '-' rest
  let (day, rest) ← readBehind '-' rest
  if 1 ≤ month && month ≤ 12 && 1 ≤ day && day ≤ daysIn year month then some rest else none

/-- The input behind hours and minutes. -/
def afterMinutes? (input : List Char) : Option (List Char) := do
  let (hour, rest) ← readDigits 2 0 input
  let (minute, rest) ← readBehind ':' rest
  if hour < 24 && minute < 60 then some rest else none

/-- The input behind a point and at least one digit, if a point comes next. -/
def afterSplit? : List Char → Option (List Char)
  | '.' :: rest => if rest.head?.any Char.isDigit then some (rest.dropWhile Char.isDigit) else none
  | input => some input

/-- The input behind seconds, if they come next. A minute may have a leap second. -/
def afterSeconds? : List Char → Option (List Char)
  | ':' :: rest => do
    let (second, rest) ← readDigits 2 0 rest
    if second ≤ 60 then afterSplit? rest else none
  | input => some input

/-- The input behind a time of day. -/
def afterTime? (input : List Char) : Option (List Char) :=
  (afterMinutes? input).bind afterSeconds?

/-- The input behind the distance to universal time, if one comes next. -/
def afterOffset? : List Char → Option (List Char)
  | 'Z' :: rest => some rest
  | 'z' :: rest => some rest
  | '+' :: rest => afterMinutes? rest
  | '-' :: rest => afterMinutes? rest
  | input => some input

/-- Whether a text is a moment. Only a date and a time together have a distance to universal
time. -/
def isMoment (word : List Char) : Bool :=
  match afterDate? word with
  | some [] => true
  | some (c :: rest) =>
    ['T', 't', ' '].contains c && (afterTime? rest).bind afterOffset? == some []
  | none => afterTime? word == some []

/-! ## Words -/

/-- The characters that separate values on a line. -/
def isSpace (c : Char) : Bool :=
  c == ' ' || c == '\t'

/-- Whether a character opens a text. -/
def isQuote (c : Char) : Bool :=
  c == '\x22' || c == '\x27'

/-- The characters other than spaces that end a word. Quotation marks do not. -/
def wordEnds : List Char :=
  ['\n', '\r', '#', '=', ',', '[', ']', '\x7b', '\x7d']

/-- Whether a character belongs to a word wherever it stands in it. -/
def isWordChar (c : Char) : Bool :=
  !isSpace c && !wordEnds.contains c

/-- Whether a word goes on behind spaces: with anything but a point or a text. -/
def goesOn (input : List Char) : Bool :=
  (input.dropWhile isSpace).head?.any fun c => isWordChar c && c != '.' && !isQuote c

/-- Splits a word off the input. Spaces belong to the word if it goes on behind them, which
`inSpaces` says is known already. -/
def splitWord : Bool → List Char → List Char × List Char
  | _, [] => ([], [])
  | inSpaces, c :: rest =>
    if isWordChar c then
      let (word, behind) := splitWord false rest
      (c :: word, behind)
    else if isSpace c && (inSpaces || goesOn rest) then
      let (word, behind) := splitWord true rest
      (c :: word, behind)
    else ([], c :: rest)

/-- The value of a word. -/
def Value.ofWord? (word : List Char) : Option Value :=
  if word = ['t', 'r', 'u', 'e'] then some (.flag true)
  else if word = ['f', 'a', 'l', 's', 'e'] then some (.flag false)
  else if isMoment word then some (.moment (String.ofList word))
  else if isNumber word then some (.number (String.ofList word))
  else none

/-- Reads a word. -/
def readWord : Read Value := fun input =>
  let (word, rest) := splitWord false input
  (Value.ofWord? word).map fun value => (value, rest)

end RosInterface.Toml
