import SourceEditor.Token.Basic

/-!
# Number literals

A number is read as a chain of optional parts, each as long as it can be:

* `0x` or `0b` with its digits, or
* digits, a fraction, an exponent and a float suffix `f` or `d`;

and after either an unsigned suffix `u` and a long suffix `l`. Underscores may stand among the
digits. The functions here return lengths: how many characters the part takes up.
-/

namespace SourceEditor.Number

/-- The length of the longest run at the start whose characters all satisfy `p`. -/
def countWhile (p : Char → Bool) (cs : List Char) : Nat := (cs.takeWhile p).length

/-- `1` if the first character satisfies `p`, otherwise `0`. -/
def countOne (p : Char → Bool) : List Char → Nat
  | c :: _ => if p c then 1 else 0
  | [] => 0

def isDecimal (c : Char) : Bool := c.isDigit || c == '_'

def isHexadecimal (c : Char) : Bool :=
  c.isDigit || ('a' ≤ c && c ≤ 'f') || ('A' ≤ c && c ≤ 'F') || c == '_'

def isBinary (c : Char) : Bool := c == '0' || c == '1' || c == '_'

/-- The length of a fraction: a point, a digit, and all that follows of digits. -/
def fraction : List Char → Nat
  | point :: d :: cs => if point == '.' && d.isDigit then 2 + countWhile isDecimal cs else 0
  | _ => 0

/-- The length of an exponent: its mark, a sign or none, a digit, and all that follows of digits. -/
def exponent : List Char → Nat
  | mark :: cs =>
    if mark == 'e' || mark == 'E' then
      match cs with
      | sign :: ds =>
        if sign == '+' || sign == '-' then
          match ds with
          | d :: rest => if d.isDigit then 3 + countWhile isDecimal rest else 0
          | [] => 0
        else if sign.isDigit then 2 + countWhile isDecimal ds
        else 0
      | [] => 0
    else 0
  | [] => 0

/-- Reads a number without its `u` and `l` suffixes. The first character, a digit or a point, is
given apart from what follows it; the answer says whether the number is a float and how many
characters it takes of what follows. -/
def body (first : Char) (cs : List Char) : Bool × Nat :=
  if first == '0' && (cs.head?.any fun c => c == 'x' || c == 'X') then
    (false, 1 + countWhile isHexadecimal cs.tail)
  else if first == '0' && (cs.head?.any fun c => c == 'b' || c == 'B') then
    (false, 1 + countWhile isBinary cs.tail)
  else
    let whole := countWhile isDecimal cs
    let frac := if first == '.' then 0 else fraction (cs.drop whole)
    let exp := exponent (cs.drop (whole + frac))
    let mark := countOne (fun c => c == 'f' || c == 'F' || c == 'd' || c == 'D')
      (cs.drop (whole + frac + exp))
    (first == '.' || 0 < frac + exp + mark, whole + frac + exp + mark)

/-- Reads a number whose first character is `first`: its kind, and how many characters it takes of
what follows the first. -/
def scan (first : Char) (cs : List Char) : TokenKind × Nat :=
  let (isFloat, n) := body first cs
  let u := countOne (fun c => c == 'u' || c == 'U') (cs.drop n)
  let l := countOne (fun c => c == 'l' || c == 'L') (cs.drop (n + u))
  (if isFloat then .floatLiteral else .integerLiteral, n + u + l)

end SourceEditor.Number
