import SourceEditor.Proofs.Text.Hexadecimal
import SourceEditor.Text.Quoted

/-!
# Quoted text is read back

`Quoted.read?` is a reader of quoted text, which knows the escapes and nothing of the characters
that have to be escaped. It reads what is written for a text as that text (`read?_quote`), character
by character: what is written for one is taken whole and leaves the reader where it was
(`readFrom?_escape`).
-/

namespace SourceEditor.Quoted

/-- Where a reader of quoted text stands. -/
inductive Reading where
  /-- Between two characters of the text. -/
  | plain
  /-- Behind a backslash. -/
  | escape
  /-- Behind a backslash and a `u`. -/
  | brace
  /-- In the number of a character, with the value of the digits so far. -/
  | code (n : Nat)

/-- The character that a letter behind a backslash stands for. -/
def shortEscape? : Char → Option Char
  | 't' => some '\t'
  | 'r' => some '\r'
  | 'n' => some '\n'
  | '"' => some '"'
  | '\\' => some '\\'
  | '0' => some '\x00'
  | _ => none

/-- The character with a number, unless there is none. -/
def scalar? (n : Nat) : Option Char := if n.isValidChar then some (Char.ofNat n) else none

/-- Reads text up to the closing quote, behind which there must be nothing. -/
def readFrom? : Reading → List Char → Option (List Char)
  | _, [] => none
  | .plain, c :: cs =>
    if c = '"' then if cs = [] then some [] else none
    else if c = '\\' then readFrom? .escape cs
    else (readFrom? .plain cs).map (c :: ·)
  | .escape, c :: cs =>
    if c = 'u' then readFrom? .brace cs
    else (shortEscape? c).bind fun d => (readFrom? .plain cs).map (d :: ·)
  | .brace, c :: cs => if c = '{' then readFrom? (.code 0) cs else none
  | .code n, c :: cs =>
    if c = '}' then (scalar? n).bind fun d => (readFrom? .plain cs).map (d :: ·)
    else (Hexadecimal.digit? c).bind fun v => readFrom? (.code (16 * n + v)) cs

/-- Reads a text in quotes. -/
def read? : List Char → Option (List Char)
  | '"' :: cs => readFrom? .plain cs
  | _ => none

theorem scalar?_toNat (c : Char) : scalar? c.toNat = some c := by
  rw [scalar?, if_pos (show c.toNat.isValidChar from c.valid), Char.ofNat_toNat]

/-- The number of a character is read up to the brace that closes it. -/
theorem readFrom?_code {acc n : Nat} {ds : List Char} (h : Hexadecimal.read? acc ds = some n)
    (rest : List Char) :
    readFrom? (.code acc) (ds ++ '}' :: rest) =
      (scalar? n).bind fun c => (readFrom? .plain rest).map (c :: ·) := by
  induction ds generalizing acc with
  | nil =>
    cases h
    rfl
  | cons d ds ih =>
    obtain ⟨v, hv, hread⟩ := Option.bind_eq_some_iff.mp h
    have hd : d ≠ '}' := by
      rintro rfl
      cases hv
    rw [List.cons_append, readFrom?, if_neg hd, hv, Option.bind_some, ih hread]

/-- What is written for a character is read as the character. -/
theorem readFrom?_escape (c : Char) (rest : List Char) :
    readFrom? .plain (escape c ++ rest) = (readFrom? .plain rest).map (c :: ·) := by
  unfold escape
  split
  case h_7 _ _ _ hquote hbackslash _ =>
    split
    · have hcode := readFrom?_code (Hexadecimal.read?_write c.toNat) rest
      rw [scalar?_toNat, Option.bind_some] at hcode
      rw [← hcode]
      simp [readFrom?]
    · rw [List.singleton_append, readFrom?, if_neg hquote, if_neg hbackslash]
  all_goals simp [readFrom?, shortEscape?]

theorem read?_quote (text : List Char) : read? (quote text) = some text := by
  change readFrom? .plain (text.flatMap escape ++ ['"']) = some text
  induction text with
  | nil => rfl
  | cons c text ih =>
    rw [List.flatMap_cons, List.append_assoc, readFrom?_escape, ih, Option.map_some]

theorem newline_not_mem_escape (c : Char) : '\n' ∉ escape c := by
  unfold escape
  split
  case h_7 _ _ hnewline _ _ _ =>
    split
    · have hwrite : '\n' ∉ Hexadecimal.write c.toNat := by
        intro hmem
        cases Hexadecimal.isSome_digit?_of_mem_write hmem
      simp [hwrite]
    · simpa using Ne.symm hnewline
  all_goals decide

/-- Quoted text stands on one line. -/
theorem newline_not_mem_quote (text : List Char) : '\n' ∉ quote text := by
  simp [quote, newline_not_mem_escape]

end SourceEditor.Quoted
