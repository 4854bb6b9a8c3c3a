import SourceEditor.Text.Hexadecimal

/-!
# Quoted text in TOML

There are four forms: text between double quotes, in which a backslash starts an escape, and text
between single quotes, in which nothing is escaped, each on one line or, between three quotes, over
several. `write` chooses the form of a text: the plainest that can hold it.
-/

namespace SourceEditor.Toml

/-! ## Reading -/

/-- Whether a character may stand in a comment or in quoted text: not a control, the tab apart. -/
def isPrintable (c : Char) : Bool := c == '\t' || (' ' ≤ c && c != '\x7f')

/-- The character with a hexadecimal number, unless there is none. -/
def scalar (ds : List Char) : Option Char :=
  match Hexadecimal.read? 0 ds with
  | some n => if n.isValidChar then some (Char.ofNat n) else none
  | none => none

/-- The character that an escape of one letter stands for. -/
def shortEscape? : Char → Option Char
  | 'b' => some '\x08'
  | 't' => some '\t'
  | 'n' => some '\n'
  | 'f' => some '\x0c'
  | 'r' => some '\r'
  | '"' => some '"'
  | '\\' => some '\\'
  | _ => none

/-- Reads what follows a backslash. -/
def escape? : List Char → Option (Char × List Char)
  | 'u' :: a :: b :: c :: d :: cs => (scalar [a, b, c, d]).map (·, cs)
  | 'U' :: a :: b :: c :: d :: e :: f :: g :: h :: cs =>
    (scalar [a, b, c, d, e, f, g, h]).map (·, cs)
  | c :: cs => (shortEscape? c).map (·, cs)
  | [] => none

theorem length_lt_of_escape? {s r : List Char} {c : Char} (h : escape? s = some (c, r)) :
    r.length < s.length := by
  unfold escape? at h
  split at h
  all_goals simp only [Option.map_eq_some_iff, Prod.mk.injEq, reduceCtorEq] at h
  all_goals
    obtain ⟨_, _, _, rfl⟩ := h
    simp only [List.length_cons]
    omega

/-- Puts a character in front of text that has been read. -/
def push (c : Char) : List Char × List Char → List Char × List Char
  | (text, rest) => (c :: text, rest)

/-- Reads text between double quotes, after the opening one. -/
def basic? (s : List Char) : Option (List Char × List Char) :=
  match s with
  | [] => none
  | '"' :: cs => some ([], cs)
  | '\\' :: cs =>
    match _h : escape? cs with
    | some (c, rest) => (basic? rest).map (push c)
    | none => none
  | c :: cs => if isPrintable c then (basic? cs).map (push c) else none
termination_by s.length
decreasing_by
  · have := length_lt_of_escape? _h
    simp only [List.length_cons]
    omega
  · simp

/-- Reads text between single quotes, after the opening one. -/
def literal? : List Char → Option (List Char × List Char)
  | [] => none
  | c :: cs =>
    if c = '\'' then some ([], cs)
    else if isPrintable c then (literal? cs).map (push c)
    else none

/-- The end of text between three quotes: up to two more quotes belong to the text. -/
def closing? (quote : Char) (s : List Char) : Option (List Char × List Char) :=
  let quotes := s.takeWhile (· == quote)
  if quotes.length ≤ 2 then some (quotes, s.dropWhile (· == quote)) else none

/-- The text without leading spaces and tabs. -/
def skipSpaces (s : List Char) : List Char := s.dropWhile fun c => c == ' ' || c == '\t'

/-- The text without leading blanks and line ends. -/
def skipBlankLines : List Char → List Char
  | ' ' :: cs => skipBlankLines cs
  | '\t' :: cs => skipBlankLines cs
  | '\n' :: cs => skipBlankLines cs
  | '\r' :: '\n' :: cs => skipBlankLines cs
  | cs => cs

/-- The text after a line end. -/
def newline? : List Char → Option (List Char)
  | '\n' :: cs => some cs
  | '\r' :: '\n' :: cs => some cs
  | _ => none

/-- What follows a backslash at the end of a line and all blanks after it. -/
def continuation? (s : List Char) : Option (List Char) :=
  (newline? (skipSpaces s)).map skipBlankLines

theorem length_skipBlankLines_le (s : List Char) : (skipBlankLines s).length ≤ s.length := by
  fun_induction skipBlankLines s <;> simp_all <;> omega

theorem length_lt_of_newline? {s r : List Char} (h : newline? s = some r) :
    r.length < s.length := by
  unfold newline? at h
  split at h
  · obtain rfl := Option.some.inj h
    exact Nat.lt_succ_self _
  · obtain rfl := Option.some.inj h
    simp only [List.length_cons]
    omega
  · simp at h

theorem length_skipSpaces_le (s : List Char) : (skipSpaces s).length ≤ s.length :=
  (List.dropWhile_sublist _).length_le

theorem length_lt_of_continuation? {s r : List Char} (h : continuation? s = some r) :
    r.length < s.length := by
  obtain ⟨t, ht, rfl⟩ := Option.map_eq_some_iff.1 h
  have h1 := length_lt_of_newline? ht
  have h2 := length_skipSpaces_le s
  have h3 := length_skipBlankLines_le t
  omega

/-- Reads text between three double quotes, after the opening ones. -/
def multilineBasic? (s : List Char) : Option (List Char × List Char) :=
  match s with
  | [] => none
  | '"' :: '"' :: '"' :: cs => closing? '"' cs
  | '\\' :: cs =>
    match _h : continuation? cs with
    | some rest => multilineBasic? rest
    | none =>
      match _h' : escape? cs with
      | some (c, rest) => (multilineBasic? rest).map (push c)
      | none => none
  | '\r' :: '\n' :: cs => (multilineBasic? cs).map (push '\n')
  | c :: cs => if c == '\n' || isPrintable c then (multilineBasic? cs).map (push c) else none
termination_by s.length
decreasing_by
  · have := length_lt_of_continuation? _h
    simp only [List.length_cons]
    omega
  · have := length_lt_of_escape? _h'
    simp only [List.length_cons]
    omega
  · simp only [List.length_cons]
    omega
  · simp

/-- Reads text between three single quotes, after the opening ones. -/
def multilineLiteral? : List Char → Option (List Char × List Char)
  | [] => none
  | '\'' :: '\'' :: '\'' :: cs => closing? '\'' cs
  | '\r' :: '\n' :: cs => (multilineLiteral? cs).map (push '\n')
  | c :: cs => if c == '\n' || isPrintable c then (multilineLiteral? cs).map (push c) else none

/-- The text after a line end, if it starts with one. -/
def dropNewline (s : List Char) : List Char := (newline? s).getD s

/-- Reads quoted text of any form. -/
def quoted? : List Char → Option (List Char × List Char)
  | '"' :: '"' :: '"' :: cs => multilineBasic? (dropNewline cs)
  | '\'' :: '\'' :: '\'' :: cs => multilineLiteral? (dropNewline cs)
  | '"' :: cs => basic? cs
  | '\'' :: cs => literal? cs
  | _ => none

/-! ## Writing -/

/-- Whether a character cannot be written but by an escape. -/
def needsEscape (c : Char) : Bool := !(c == '\n' || isPrintable c)

/-- The length of the longest run of a character, given that of the run before the text. -/
def longestRun (c : Char) : (current : Nat) → List Char → Nat
  | n, [] => n
  | n, d :: ds => if d = c then longestRun c (n + 1) ds else max n (longestRun c 0 ds)

/-- The escape of a character. -/
def escaped : Char → List Char
  | '\x08' => ['\\', 'b']
  | '\t' => ['\\', 't']
  | '\n' => ['\\', 'n']
  | '\x0c' => ['\\', 'f']
  | '\r' => ['\\', 'r']
  | '"' => ['\\', '"']
  | '\\' => ['\\', '\\']
  | c => ['\\', 'u', '0', '0', Hexadecimal.upperDigit (c.toNat / 16),
      Hexadecimal.upperDigit (c.toNat % 16)]

/-- Text between double quotes on one line. -/
def basicBody (text : List Char) : List Char :=
  text.flatMap fun c =>
    if c == '\t' || c == '"' || c == '\\' || c == '\n' || needsEscape c then escaped c else [c]

/-- Text between three double quotes, after a number of quotes: of three in a row the third is
escaped. -/
def multilineBasicBody : (quotes : Nat) → List Char → List Char
  | _, [] => []
  | n, c :: cs =>
    if c == '"' then
      if n = 2 then escaped c ++ multilineBasicBody 0 cs else c :: multilineBasicBody (n + 1) cs
    else if c == '\t' || c == '\\' || needsEscape c then escaped c ++ multilineBasicBody 0 cs
    else c :: multilineBasicBody 0 cs

/-- What follows the opening quotes of a text over several lines. -/
def opening (text : List Char) : List Char := if text.contains '\n' then ['\n'] else []

/-- Text between quotes. -/
def enclose (quotes body : List Char) : List Char := quotes ++ body ++ quotes

/-- The written form of a text. -/
def write (text : List Char) : List Char :=
  let control := text.any needsEscape
  let newline := text.contains '\n'
  let backslash := text.contains '\\'
  let doubles := longestRun '"' 0 text
  let singles := longestRun '\'' 0 text
  let multilineBasic :=
    enclose ['"', '"', '"'] (opening text ++ multilineBasicBody 0 text)
  if !control && !backslash && !newline && doubles = 0 then enclose ['"'] (basicBody text)
  else if !control && !newline && singles = 0 then enclose ['\''] text
  else if !control && !backslash && doubles ≤ 2 then multilineBasic
  else if !control && singles ≤ 2 then enclose ['\'', '\'', '\''] (opening text ++ text)
  else if newline then multilineBasic
  else enclose ['"'] (basicBody text)

end SourceEditor.Toml
