/-!
# Hexadecimal digits

Reading and writing numbers in base sixteen. Reading takes digits of either case, writing uses
lower case where nothing else is said.
-/

namespace SourceEditor.Hexadecimal

/-- The value of a hexadecimal digit. -/
def digit? (c : Char) : Option Nat :=
  if '0' ≤ c && c ≤ '9' then some (c.toNat - '0'.toNat)
  else if 'a' ≤ c && c ≤ 'f' then some (c.toNat - 'a'.toNat + 10)
  else if 'A' ≤ c && c ≤ 'F' then some (c.toNat - 'A'.toNat + 10)
  else none

/-- The digit of a value below sixteen. -/
def digit (n : Nat) : Char :=
  if n < 10 then Char.ofNat ('0'.toNat + n) else Char.ofNat ('a'.toNat + (n - 10))

/-- The digit of a value below sixteen, in upper case. -/
def upperDigit (n : Nat) : Char :=
  if n < 10 then Char.ofNat ('0'.toNat + n) else Char.ofNat ('A'.toNat + (n - 10))

/-- The number that digits write, where `acc` is the value of the digits already read. -/
def read? (acc : Nat) : List Char → Option Nat
  | [] => some acc
  | c :: cs => (digit? c).bind fun d => read? (16 * acc + d) cs

/-- The digits of a number, without leading zeros. -/
def write (n : Nat) : List Char :=
  if n < 16 then [digit n] else write (n / 16) ++ [digit (n % 16)]

end SourceEditor.Hexadecimal
