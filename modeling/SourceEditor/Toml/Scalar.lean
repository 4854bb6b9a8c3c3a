import SourceEditor.Settings.Value
import SourceEditor.Text.Hexadecimal

/-!
# Numbers, dates and words in TOML

A value that is neither quoted nor bracketed is one word of letters, digits and a few marks, and
what it means is read off the whole word. Of floats and dates only their form matters.
-/

namespace SourceEditor.Toml

/-! ## Integers -/

/-- The digits of a number in which single underscores may part digits. -/
def digits? (isDigit : Char → Bool) : List Char → Option (List Char)
  | [] => none
  | [d] => if isDigit d then some [d] else none
  | d :: '_' :: ds => if isDigit d then (digits? isDigit ds).map (d :: ·) else none
  | d :: ds => if isDigit d then (digits? isDigit ds).map (d :: ·) else none

/-- The number that digits denote in a base. -/
def ofDigits (base : Nat) (ds : List Char) : Nat :=
  ds.foldl (fun n d => base * n + (Hexadecimal.digit? d).getD 0) 0

def isHexDigit (c : Char) : Bool := (Hexadecimal.digit? c).isSome

def isOctalDigit (c : Char) : Bool := '0' ≤ c && c ≤ '7'

def isBinaryDigit (c : Char) : Bool := c == '0' || c == '1'

/-- Whether the first of several digits is a zero. -/
def hasLeadingZero : List Char → Bool
  | '0' :: _ :: _ => true
  | _ => false

/-- The digits of a decimal number that has no leading zero. -/
def decimal? (cs : List Char) : Option (List Char) :=
  (digits? Char.isDigit cs).filter fun ds => !hasLeadingZero ds

/-- A number without a sign in one of four bases. -/
def natural? : List Char → Option Nat
  | '0' :: 'x' :: cs => (digits? isHexDigit cs).map (ofDigits 16)
  | '0' :: 'o' :: cs => (digits? isOctalDigit cs).map (ofDigits 8)
  | '0' :: 'b' :: cs => (digits? isBinaryDigit cs).map (ofDigits 2)
  | cs => (decimal? cs).map (ofDigits 10)

/-- An integer of any size. Only decimal numbers have signs. -/
def anyInteger? : List Char → Option Int
  | '+' :: cs => (decimal? cs).map fun ds => (ofDigits 10 ds : Int)
  | '-' :: cs => (decimal? cs).map fun ds => -(ofDigits 10 ds : Int)
  | cs => (natural? cs).map fun n => (n : Int)

/-- An integer of sixty-four bits. -/
def integer? (cs : List Char) : Option Int :=
  (anyInteger? cs).filter fun n => decide (-0x8000000000000000 ≤ n ∧ n < 0x8000000000000000)

/-! ## Floats -/

/-- The characters before the first that satisfies `p`, and those after it if there is one. -/
def cut (p : Char → Bool) : List Char → List Char × Option (List Char)
  | [] => ([], none)
  | c :: cs => if p c then ([], some cs) else let (a, b) := cut p cs; (c :: a, b)

/-- A text without its leading sign. -/
def unsigned : List Char → List Char
  | '+' :: cs => cs
  | '-' :: cs => cs
  | cs => cs

/-- A decimal fraction: digits, and how many of them follow the point less the exponent. -/
structure Fraction where
  digits : List Char
  scale : Int

/-- The number halfway from the largest float of sixty-four bits to the next power of two. -/
def floatBorder : Nat := Nat.pow 2 1024 - Nat.pow 2 970

/-- Whether a positive fraction is too large for a float: not below the border. Numbers that are far
from the border are judged by their number of digits. -/
def Fraction.isHuge (f : Fraction) : Bool :=
  let n := ofDigits 10 f.digits
  let magnitude := (Nat.toDigits 10 n).length - f.scale
  if n = 0 || magnitude < 300 then false
  else if 320 < magnitude then true
  else if f.scale ≤ 0 then floatBorder ≤ n * Nat.pow 10 (-f.scale).toNat
  else floatBorder * Nat.pow 10 f.scale.toNat ≤ n

/-- The exponent of a float. -/
def exponent? (cs : List Char) : Option Int :=
  (digits? Char.isDigit (unsigned cs)).map fun ds =>
    if cs.head? == some '-' then -(ofDigits 10 ds : Int) else (ofDigits 10 ds : Int)

/-- A float without a sign: it has a fraction, an exponent, or both. -/
def fraction? (cs : List Char) : Option Fraction :=
  let (mantissa, power) := cut (fun c => c == 'e' || c == 'E') cs
  let (whole, part) := cut (· == '.') mantissa
  match decimal? whole, part, power with
  | some ds, some part, none => (digits? Char.isDigit part).map fun fs => ⟨ds ++ fs, fs.length⟩
  | some ds, none, some power => (exponent? power).map fun e => ⟨ds, -e⟩
  | some ds, some part, some power => do
    let fs ← digits? Char.isDigit part
    let e ← exponent? power
    return ⟨ds ++ fs, fs.length - e⟩
  | _, _, _ => none

/-- Whether a word is a float. One that is too large is not, unless it is negative. -/
def isFloat (cs : List Char) : Bool :=
  let body := unsigned cs
  body == ['i', 'n', 'f'] || body == ['n', 'a', 'n'] ||
    (fraction? body).any fun f => cs.head? == some '-' || !f.isHuge

/-! ## Dates -/

/-- Takes a number of the given width, and what follows it. -/
def fixed? (width : Nat) (cs : List Char) : Option (Nat × List Char) :=
  let ds := cs.take width
  if ds.length = width ∧ ds.all Char.isDigit then some (ofDigits 10 ds, cs.drop width) else none

/-- Takes a number of two digits between two bounds after a mark. -/
def marked? (mark : Char) (low high : Nat) : List Char → Option (Nat × List Char)
  | [] => none
  | c :: cs =>
    if c = mark then (fixed? 2 cs).filter fun (n, _) => decide (low ≤ n ∧ n ≤ high) else none

def isLeapYear (year : Nat) : Bool := year % 4 == 0 && (year % 100 != 0 || year % 400 == 0)

def daysInMonth (year month : Nat) : Nat :=
  if month = 2 then if isLeapYear year then 29 else 28
  else if month = 4 ∨ month = 6 ∨ month = 9 ∨ month = 11 then 30
  else 31

/-- Takes a date off the front. -/
def takeDate? (cs : List Char) : Option (List Char) := do
  let (year, cs) ← fixed? 4 cs
  let (month, cs) ← marked? '-' 1 12 cs
  let (_, cs) ← marked? '-' 1 (daysInMonth year month) cs
  return cs

/-- Takes a fraction of a second off the front, if there is one. -/
def takeSecondFraction? : List Char → Option (List Char)
  | '.' :: cs =>
    let rest := cs.dropWhile Char.isDigit
    if rest.length < cs.length then some rest else none
  | cs => some cs

/-- Takes a time off the front. -/
def takeTime? (cs : List Char) : Option (List Char) := do
  let (hour, cs) ← fixed? 2 cs
  let (_, cs) ← marked? ':' 0 59 cs
  let (_, cs) ← marked? ':' 0 60 cs
  if hour ≤ 23 then takeSecondFraction? cs else none

/-- Whether a word says how far a time is from universal time, or nothing. -/
def isTimeOffset : List Char → Bool
  | [] => true
  | [c] => c == 'Z' || c == 'z'
  | c :: cs =>
    (c == '+' || c == '-') &&
      ((fixed? 2 cs).any fun (hour, cs) =>
        hour ≤ 23 && (marked? ':' 0 59 cs).any fun (_, cs) => cs.isEmpty)

/-- Whether a word is a time with or without an offset. -/
def isOffsetTime (cs : List Char) : Bool := (takeTime? cs).any isTimeOffset

/-- Whether a word is a date alone. -/
def isDay (cs : List Char) : Bool := takeDate? cs == some []

/-- Whether a word is a date, with or without a time, or a time. -/
def isDate (cs : List Char) : Bool :=
  takeTime? cs == some [] ||
    match takeDate? cs with
    | some [] => true
    | some (c :: rest) => (c == 'T' || c == 't') && isOffsetTime rest
    | none => false

/-! ## Words -/

/-- The value that a word stands for. -/
def word? (cs : List Char) : Option Value :=
  if cs == ['t', 'r', 'u', 'e'] then some (.boolean true)
  else if cs == ['f', 'a', 'l', 's', 'e'] then some (.boolean false)
  else
    match integer? cs with
    | some n => some (.integer n)
    | none => if isFloat cs then some .float else if isDate cs then some .date else none

/-- The characters of words. -/
def isWordChar (c : Char) : Bool :=
  c.isAlphanum || c == '+' || c == '-' || c == '_' || c == '.' || c == ':'

/-- Takes a word off the front and reads it. A date may be followed by a space and a time. -/
def scalar? (s : List Char) : Option (Value × List Char) :=
  let word := s.takeWhile isWordChar
  let rest := s.dropWhile isWordChar
  if isDay word then
    match rest with
    | ' ' :: cs =>
      if isOffsetTime (cs.takeWhile isWordChar) then some (.date, cs.dropWhile isWordChar)
      else some (.date, rest)
    | _ => some (.date, rest)
  else (word? word).map (·, rest)

end SourceEditor.Toml
