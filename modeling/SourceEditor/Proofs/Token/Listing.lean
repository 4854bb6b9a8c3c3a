import SourceEditor.Language
import SourceEditor.Proofs.Text.Quoted
import SourceEditor.Proofs.Token.Coverage
import SourceEditor.Token.Listing
import Mathlib.Data.List.Basic

/-!
# Listings of tokens are read back

A listing has one line for each token (`splitOn_tokenListing`), and `Token.read?` reads a token from
its line (`Token.read?_entry`). Of a text, whose tokens cover it, the listing thus tells everything
(`tokenListing_faithful`).

A line has four parts, and each of them is known by where it ends: a number by the first character
that is no digit, a name by the space behind it, and the quoted text by the end of the line. So it
is enough that no digit follows a number, and that there is no space in a name and no newline
anywhere.
-/

namespace SourceEditor

/-! ## Reading a line -/

namespace TokenKind

def all : List TokenKind :=
  [.whitespace, .identifier, .keyword, .integerLiteral, .floatLiteral, .charLiteral, .stringLiteral,
    .templateEntry, .lineComment, .blockComment, .docComment, .shebang, .leftParen, .rightParen,
    .leftBrace, .rightBrace, .leftBracket, .rightBracket, .semicolon, .colon, .comma, .dot, .at,
    .operator, .badCharacter]

/-- The kind with a name. -/
def ofName? (name : List Char) : Option TokenKind := all.find? (·.name == String.ofList name)

theorem ofName?_name (kind : TokenKind) : ofName? kind.name.toList = some kind := by
  rw [ofName?, String.ofList_toList]
  cases kind <;> decide

theorem isWord_name (kind : TokenKind) :
    kind.name.toList.all (fun c => c != ' ' && c != '\n') = true := by
  cases kind <;> decide

end TokenKind

/-- Reads a number. -/
def number? (cs : List Char) : Option (Nat × List Char) :=
  let digits := cs.takeWhile Char.isDigit
  if digits = [] then none else some (Nat.ofDigitChars 10 digits 0, cs.dropWhile Char.isDigit)

namespace Token

/-- Reads a token from its line. -/
def read? (line : List Char) : Option Token := do
  let (start, rest) ← number? line
  let rest ← rest.dropPrefix? ['.', '.']
  let (stop, rest) ← number? rest
  let rest ← rest.dropPrefix? [' ']
  let kind ← TokenKind.ofName? (rest.takeWhile (· != ' '))
  let rest ← (rest.dropWhile (· != ' ')).dropPrefix? [' ']
  let text ← Quoted.read? rest
  let token : Token := ⟨kind, start, text⟩
  if token.stop = stop then some token else none

/-- The line of a token, without the newline that ends it. -/
def entry (t : Token) : List Char :=
  Nat.toDigits 10 t.start ++ '.' :: '.' :: (Nat.toDigits 10 t.stop ++
    ' ' :: (t.kind.name.toList ++ ' ' :: Quoted.quote t.text))

theorem toList_line (t : Token) : t.line.toList = t.entry ++ ['\n'] := by
  simp [line, entry, toString, Nat.toList_repr]

end Token

/-- A number ends where no digit follows. -/
theorem number?_toDigits (n : Nat) {c : Char} (hc : c.isDigit = false) (rest : List Char) :
    number? (Nat.toDigits 10 n ++ c :: rest) = some (n, c :: rest) := by
  have hdigits : ∀ d ∈ Nat.toDigits 10 n, d.isDigit = true := fun d hd =>
    Nat.isDigit_of_mem_toDigits (by decide) (by decide) hd
  have hend : ¬ c.isDigit = true := by simp [hc]
  rw [number?, List.takeWhile_append_of_pos hdigits, List.dropWhile_append_of_pos hdigits,
    List.takeWhile_cons_of_neg hend, List.dropWhile_cons_of_neg hend, List.append_nil]
  simp only [if_neg Nat.toDigits_ne_nil]
  rw [Nat.ofDigitChars_ten_toDigits]

theorem dropPrefix?_append (front back : List Char) :
    (front ++ back).dropPrefix? front = some back :=
  List.dropPrefix?_eq_some_iff.mpr ⟨front, rfl, BEq.rfl⟩

namespace Token

theorem read?_entry (t : Token) : read? t.entry = some t := by
  have hname : ∀ c ∈ t.kind.name.toList, (c != ' ') = true := fun c hc =>
    (Bool.and_eq_true_iff.mp (List.all_eq_true.mp t.kind.isWord_name c hc)).1
  have hword (rest : List Char) :
      (t.kind.name.toList ++ ' ' :: rest).takeWhile (· != ' ') = t.kind.name.toList := by
    rw [List.takeWhile_append_of_pos hname, List.takeWhile_cons_of_neg (by decide), List.append_nil]
  have hbehind (rest : List Char) :
      (t.kind.name.toList ++ ' ' :: rest).dropWhile (· != ' ') = ' ' :: rest := by
    rw [List.dropWhile_append_of_pos hname, List.dropWhile_cons_of_neg (by decide)]
  have hdots (rest : List Char) : ('.' :: '.' :: rest).dropPrefix? ['.', '.'] = some rest :=
    dropPrefix?_append ['.', '.'] rest
  have hspace (rest : List Char) : (' ' :: rest).dropPrefix? [' '] = some rest :=
    dropPrefix?_append [' '] rest
  simp only [read?, entry, number?_toDigits _ (show '.'.isDigit = false by decide),
    number?_toDigits _ (show ' '.isDigit = false by decide), hdots, hspace, hword, hbehind,
    TokenKind.ofName?_name, Quoted.read?_quote, Option.bind_eq_bind, Option.bind_some]
  exact if_pos trivial

theorem newline_not_mem_entry (t : Token) : '\n' ∉ t.entry := by
  have hdigits (n : Nat) : '\n' ∉ Nat.toDigits 10 n := fun hmem =>
    absurd (Nat.isDigit_of_mem_toDigits (by decide) (by decide) hmem) (by decide)
  have hname : '\n' ∉ t.kind.name.toList := by
    intro hmem
    exact absurd (List.all_eq_true.mp t.kind.isWord_name _ hmem) (by decide)
  simp [entry, hdigits, hname, Quoted.newline_not_mem_quote]

end Token

/-! ## Whole listings -/

theorem toList_tokenListing_cons (t : Token) (ts : List Token) :
    (tokenListing (t :: ts)).toList = t.entry ++ '\n' :: (tokenListing ts).toList := by
  simp only [tokenListing, String.toList_join, List.map_cons, List.flatMap_cons, Token.toList_line,
    List.append_assoc, List.singleton_append]

/-- There is one line for each token, and a newline behind each line. -/
theorem splitOn_tokenListing (ts : List Token) :
    (tokenListing ts).toList.splitOn '\n' = ts.map Token.entry ++ [[]] := by
  induction ts with
  | nil => rfl
  | cons t ts ih =>
    rw [toList_tokenListing_cons,
      List.splitOn_append_cons_self_of_not_mem t.newline_not_mem_entry, ih]
    rfl

theorem mapM_read?_entry (ts : List Token) : (ts.map Token.entry).mapM Token.read? = some ts := by
  induction ts with
  | nil => rfl
  | cons t ts ih =>
    rw [List.map_cons, List.mapM_cons, Token.read?_entry, ih]
    rfl

/-- A listing is of one list of tokens only. -/
theorem tokenListing_injective : Function.Injective tokenListing := by
  intro ts us h
  have hentries : ts.map Token.entry = us.map Token.entry := by
    have hsplit := splitOn_tokenListing ts
    rw [h, splitOn_tokenListing] at hsplit
    exact (List.append_cancel_right hsplit).symm
  have hread := mapM_read?_entry ts
  rw [hentries, mapM_read?_entry] at hread
  exact (Option.some.inj hread).symm

theorem Language.flatMap_text_tokens (language : Language) (source : List Char) :
    (language.tokens source).flatMap Token.text = source :=
  (tiles_tokens language.productive_rules source).flatMap_text

/-- **The listing of a text is faithful.** It has one line for each token, from which the token is
read back, and the texts of the tokens make up the text. Different texts have different listings,
whatever the languages are that they are read in. -/
theorem tokenListing_faithful (language : Language) (source : List Char) :
    (∃ lines, (tokenListing (language.tokens source)).toList.splitOn '\n' = lines ++ [[]] ∧
        lines.length = (language.tokens source).length ∧
        lines.mapM Token.read? = some (language.tokens source)) ∧
      (language.tokens source).flatMap Token.text = source ∧
      ∀ (other : Language) (text : List Char), text ≠ source →
        tokenListing (other.tokens text) ≠ tokenListing (language.tokens source) := by
  refine ⟨⟨_, splitOn_tokenListing _, List.length_map _, mapM_read?_entry _⟩,
    language.flatMap_text_tokens source, ?_⟩
  intro other text hne heq
  apply hne
  rw [← other.flatMap_text_tokens text, tokenListing_injective heq, language.flatMap_text_tokens]

/-- A newline, and the backslash and the letter that it is shown as. -/
theorem tokenListing_faithful_newline :
    (tokenListing (Language.kotlin.tokens ['\n'])).toList.splitOn '\n' =
        [['0', '.', '.', '1', ' ', 'w', 'h', 'i', 't', 'e', 's', 'p', 'a', 'c', 'e', ' ', '"',
          '\\', 'n', '"'], []] ∧
      ['\\', 'n'] ≠ ['\n'] ∧
      tokenListing (Language.java.tokens ['\\', 'n']) ≠
        tokenListing (Language.kotlin.tokens ['\n']) := by
  refine ⟨by decide +kernel, by decide, ?_⟩
  exact (tokenListing_faithful .kotlin ['\n']).2.2 .java ['\\', 'n'] (by decide)

end SourceEditor
