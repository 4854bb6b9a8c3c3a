import SourceEditor.Proofs.Toml.Literal

/-!
# Written documents are read back

A document is written section by section, and each line of it is one statement again
(`statements?_writeSections`). What the statements build is a question about tables alone. Writing
goes on in the table that was opened last. It is the last entry of the table that it lies in, and so
on up to the document. `nest` puts a table there, and a change at the end of the path of the current
table is a change of what is nested (`updateAt?_nest`). With that one fact a section fills its table
(`run_pairs`), at every depth.
-/

namespace SourceEditor.Toml

/-! ## Keys -/

/-- A key that needs no quotes. -/
def IsBareKey (key : String) : Prop :=
  key.toList ≠ [] ∧ ∀ c ∈ key.toList, isBareKeyChar c = true

instance (key : String) : Decidable (IsBareKey key) :=
  decidable_of_iff (key.toList ≠ [] ∧ key.toList.all isBareKeyChar = true)
    (and_congr_right fun _ => List.all_eq_true)

variable {key : String} {rest : List Char}

/-- The first character of a key is none that a line or a value could start with otherwise. -/
theorem IsBareKey.exists_cons (h : IsBareKey key) :
    ∃ c cs, key.toList = c :: cs ∧ c ∉ [' ', '\t', '\n', '\r', '#', '"', '\'', '[', '\ufeff'] := by
  obtain ⟨c, cs, hkey⟩ := List.exists_cons_of_ne_nil h.1
  refine ⟨c, cs, hkey, fun hc => ?_⟩
  have hnone : [' ', '\t', '\n', '\r', '#', '"', '\'', '[', '\ufeff'].all
      (!isBareKeyChar ·) = true := by decide
  have hbare := h.2 c (by simp [hkey])
  simpa [hbare] using List.all_eq_true.mp hnone c hc

theorem keyPart?_append (h : IsBareKey key) {c : Char} (hc : isBareKeyChar c = false)
    (cs : List Char) : keyPart? (key.toList ++ c :: cs) = some (key, c :: cs) := by
  have hend : ¬ isBareKeyChar c = true := by simp [hc]
  have htake : (key.toList ++ c :: cs).takeWhile isBareKeyChar = key.toList := by
    rw [List.takeWhile_append_of_pos h.2, List.takeWhile_cons_of_neg hend, List.append_nil]
  have hdrop : (key.toList ++ c :: cs).dropWhile isBareKeyChar = c :: cs := by
    rw [List.dropWhile_append_of_pos h.2, List.dropWhile_cons_of_neg hend]
  obtain ⟨d, ds, hkey, hd⟩ := h.exists_cons
  rw [keyPart?.eq_def]
  split
  · simp_all
  · simp_all
  · simp [htake, hdrop, h.1]

theorem skipSpaces_key (h : IsBareKey key) (cs : List Char) :
    skipSpaces (key.toList ++ cs) = key.toList ++ cs := by
  obtain ⟨d, ds, hkey, hd⟩ := h.exists_cons
  rw [hkey, List.cons_append]
  exact skipSpaces_cons (by simp_all) _

theorem spacedKeyPart?_append (h : IsBareKey key) {c : Char} (hc : isBareKeyChar c = false)
    (cs : List Char) :
    spacedKeyPart? (key.toList ++ c :: cs) = some (key, skipSpaces (c :: cs)) := by
  simp only [spacedKeyPart?, skipSpaces_key h, keyPart?_append h hc, Option.map_some]

/-- The parts of a key with dots between them, in front of a bracket. -/
theorem separated_path {path : List String} (hne : path ≠ []) (h : ∀ key ∈ path, IsBareKey key)
    (rest : List Char) :
    separated spacedKeyPart? '.'
        (['.'].intercalate (path.map String.toList) ++ ']' :: rest) =
      some (path, ']' :: rest) := by
  induction path with
  | nil => exact absurd rfl hne
  | cons key path ih =>
    obtain ⟨hkey, hpath⟩ := List.forall_mem_cons.mp h
    cases path with
    | nil =>
      have hpart := spacedKeyPart?_append hkey (c := ']') (by decide) rest
      rw [skipSpaces_cons (by decide)] at hpart
      simpa [List.intercalate] using separated_last hpart (by decide)
    | cons next path =>
      have hform : ['.'].intercalate ((key :: next :: path).map String.toList) ++ ']' :: rest =
          key.toList ++
            '.' :: (['.'].intercalate ((next :: path).map String.toList) ++ ']' :: rest) := by
        simp [List.intercalate]
      have hpart := spacedKeyPart?_append hkey (c := '.') (by decide)
        (['.'].intercalate ((next :: path).map String.toList) ++ ']' :: rest)
      rw [skipSpaces_cons (by decide)] at hpart
      rw [hform]
      refine separated_cons hpart ?_ (ih (by simp) hpath)
      simp only [List.length_append, List.length_cons]
      omega

theorem key?_of_separated {s : List Char} {front : List String} {name : String}
    (h : separated spacedKeyPart? '.' s = some (front ++ [name], rest))
    (hlength : front.length + 1 < nestingLimit) : key? s = some (⟨front, name⟩, rest) := by
  simp [key?, h, hlength]

/-! ## Lines -/

theorem lineEnd?_newline (rest : List Char) : lineEnd? ('\n' :: rest) = some rest := by
  rw [lineEnd?, skipSpaces_cons (by decide)]
  rfl

theorem line?_of_statement? {s : List Char} {statement : Statement}
    (hs : skipSpaces s = s) (h : statement? s = some (statement, '\n' :: rest)) :
    line? s = some (statement, rest) := by
  simp only [line?, hs, h, Option.bind_eq_bind, Option.bind_some, lineEnd?_newline]
  rfl

theorem line?_newline (rest : List Char) : line? ('\n' :: rest) = some (.blank, rest) :=
  line?_of_statement? (skipSpaces_cons (by decide) rest) rfl

theorem Literal.exists_toChars_cons (l : Literal) :
    ∃ c cs, l.toChars = c :: cs ∧ c ≠ ' ' ∧ c ≠ '\t' := by
  cases l with
  | boolean b =>
    cases b with
    | true => exact ⟨'t', ['r', 'u', 'e'], rfl, by decide⟩
    | false => exact ⟨'f', ['a', 'l', 's', 'e'], rfl, by decide⟩
  | integer n =>
    obtain ⟨c, cs, heq⟩ := List.exists_cons_of_ne_nil (writeInteger_ne_nil n)
    refine ⟨c, cs, heq, ?_⟩
    obtain rfl | hdigit := mem_writeInteger (n := n) (c := c) (by simp [heq])
    · decide
    · constructor
      · rintro rfl
        exact absurd hdigit (by decide)
      · rintro rfl
        exact absurd hdigit (by decide)
  | string text =>
    obtain ⟨quote, cs, heq, rfl | rfl⟩ := exists_write_cons text
    · exact ⟨_, _, heq, by decide⟩
    · exact ⟨_, _, heq, by decide⟩
  | strings texts =>
    change ∃ c cs, writeStrings texts = c :: cs ∧ c ≠ ' ' ∧ c ≠ '\t'
    unfold writeStrings
    split
    · exact ⟨'[', _, rfl, by decide⟩
    · exact ⟨'[', _, rfl, by decide⟩
    · exact ⟨'[', _, rfl, by decide⟩

theorem skipSpaces_literal (l : Literal) (rest : List Char) :
    skipSpaces (' ' :: (l.toChars ++ rest)) = l.toChars ++ rest := by
  have hskip (cs : List Char) : skipSpaces (' ' :: cs) = skipSpaces cs := rfl
  obtain ⟨c, cs, heq, hc⟩ := l.exists_toChars_cons
  rw [hskip, heq, List.cons_append, skipSpaces_cons hc]

theorem assignment?_append (h : IsBareKey key) {l : Literal} (hfits : l.Fits)
    (hrest : EndsValue rest) (depth : Nat) :
    assignment? (value? (depth + 1)) (key.toList ++ ' ' :: '=' :: ' ' :: (l.toChars ++ rest)) =
      some ((⟨[], key⟩, l.toValue), rest) := by
  have hpart := spacedKeyPart?_append h (c := ' ') (by decide) ('=' :: ' ' :: (l.toChars ++ rest))
  have hspaces : skipSpaces (' ' :: '=' :: ' ' :: (l.toChars ++ rest)) =
      '=' :: ' ' :: (l.toChars ++ rest) := rfl
  rw [hspaces] at hpart
  have hparts : separated spacedKeyPart? '.'
      (key.toList ++ ' ' :: '=' :: ' ' :: (l.toChars ++ rest)) =
        some ([] ++ [key], '=' :: ' ' :: (l.toChars ++ rest)) := separated_last hpart (by decide)
  simp only [assignment?, key?_of_separated hparts (by decide), Option.bind_eq_bind,
    Option.bind_some, expect?, if_true, skipSpaces_literal, value?_toChars depth hfits hrest]
  rfl

theorem statement?_of_assignment? (h : IsBareKey key) {cs : List Char} {pair : Key × Value}
    (hpair : assignment? (value? (nestingLimit - 1)) (key.toList ++ cs) = some (pair, rest)) :
    statement? (key.toList ++ cs) = some (.assign pair.1 pair.2, rest) := by
  obtain ⟨d, ds, hkey, hd⟩ := h.exists_cons
  rw [hkey, List.cons_append] at hpair ⊢
  simp only [List.mem_cons, List.not_mem_nil, or_false, not_or] at hd
  rw [statement?.eq_def]
  split <;> simp_all

/-- The line of a key is its assignment. -/
theorem line?_pairLine (h : IsBareKey key) {l : Literal} (hfits : l.Fits) (rest : List Char) :
    line? (Section.pairLine (key, l) ++ rest) = some (.assign ⟨[], key⟩ l.toValue, rest) := by
  have hform : Section.pairLine (key, l) ++ rest =
      key.toList ++ ' ' :: '=' :: ' ' :: (l.toChars ++ '\n' :: rest) := by
    simp [Section.pairLine]
  have hassign := assignment?_append h hfits ⟨'\n', rest, rfl, by simp⟩ (nestingLimit - 2)
  rw [hform]
  exact line?_of_statement? (skipSpaces_key h _) (statement?_of_assignment? h hassign)

theorem exists_path_cons {path : List String} (hne : path ≠ [])
    (h : ∀ key ∈ path, IsBareKey key) :
    ∃ c cs, ['.'].intercalate (path.map String.toList) = c :: cs ∧ c ≠ '[' := by
  obtain ⟨key, path, rfl⟩ := List.exists_cons_of_ne_nil hne
  obtain ⟨c, cs, hkey, hc⟩ := (h key (by simp)).exists_cons
  have hbracket : c ≠ '[' := by
    rintro rfl
    simp at hc
  cases path with
  | nil => exact ⟨c, cs, by simp [List.intercalate, hkey], hbracket⟩
  | cons next path =>
    exact ⟨c, cs ++ '.' :: ['.'].intercalate ((next :: path).map String.toList),
      by simp [List.intercalate, hkey], hbracket⟩

/-- The line of a header opens its table. -/
theorem line?_header {front : List String} {name : String}
    (h : ∀ key ∈ front ++ [name], IsBareKey key) (hlength : front.length + 1 < nestingLimit)
    (rest : List Char) :
    line? ('[' :: (['.'].intercalate ((front ++ [name]).map String.toList) ++
        ']' :: '\n' :: rest)) =
      some (.header ⟨front, name⟩, rest) := by
  have hkey := key?_of_separated (separated_path (by simp) h ('\n' :: rest)) hlength
  obtain ⟨c, cs, heq, hc⟩ := exists_path_cons (by simp) h
  refine line?_of_statement? (skipSpaces_cons (by decide) _) ?_
  rw [heq, List.cons_append] at hkey ⊢
  rw [statement?.eq_def]
  split
  · simp_all
  · simp_all
  · next hcs =>
    cases hcs
    simp [hkey, expect?]
  · next hbracket hcs =>
    cases hcs
    exact (hbracket rfl).elim

/-! ## Statements -/

theorem statements?_cons {line : List Char} {statement : Statement} {statements : List Statement}
    (hne : line ≠ []) (hline : line? (line ++ rest) = some (statement, rest))
    (hrest : statements? rest = some statements) :
    statements? (line ++ rest) = some (statement :: statements) := by
  have hlength := List.length_pos_iff.mpr hne
  rw [statements?.eq_def, hline]
  simp [hne, hrest, hlength]

namespace Section

/-- A section that is read back: its keys need no quotes, the path is not too long, and the literals
can be held. -/
structure Readable (s : Section) : Prop where
  path_bare : ∀ key ∈ s.path, IsBareKey key
  path_length : s.path.length < nestingLimit
  keys_bare : ∀ pair ∈ s.pairs, IsBareKey pair.1
  fits : ∀ pair ∈ s.pairs, pair.2.Fits

/-- The statement of a key with its value. -/
def assignment (pair : String × Literal) : Statement := .assign ⟨[], pair.1⟩ pair.2.toValue

/-- The statements of a header: that of the empty line before it, and its own. -/
def headerStatements (path : List String) : List Statement :=
  match path.getLast? with
  | some name => [.blank, .header ⟨path.dropLast, name⟩]
  | none => []

def statements (s : Section) : List Statement :=
  headerStatements s.path ++ s.pairs.map assignment

end Section

variable {statements : List Statement}

theorem statements?_pairs {pairs : List (String × Literal)}
    (hkeys : ∀ pair ∈ pairs, IsBareKey pair.1) (hfits : ∀ pair ∈ pairs, pair.2.Fits)
    (hrest : statements? rest = some statements) :
    statements? (pairs.flatMap Section.pairLine ++ rest) =
      some (pairs.map Section.assignment ++ statements) := by
  induction pairs with
  | nil => exact hrest
  | cons pair pairs ih =>
    obtain ⟨hkey, hkeys⟩ := List.forall_mem_cons.mp hkeys
    obtain ⟨hfit, hfits⟩ := List.forall_mem_cons.mp hfits
    rw [List.flatMap_cons, List.append_assoc]
    exact statements?_cons (by simp [Section.pairLine]) (line?_pairLine hkey hfit _)
      (ih hkeys hfits)

theorem statements?_header {path : List String} (hpath : ∀ key ∈ path, IsBareKey key)
    (hlength : path.length < nestingLimit) (hrest : statements? rest = some statements) :
    statements? (Section.header path ++ rest) =
      some (Section.headerStatements path ++ statements) := by
  rcases List.eq_nil_or_concat path with rfl | ⟨front, name, rfl⟩
  · exact hrest
  · rw [List.concat_eq_append] at hpath hlength ⊢
    have hform : Section.header (front ++ [name]) ++ rest =
        ['\n'] ++ (('[' :: (['.'].intercalate ((front ++ [name]).map String.toList) ++
          "]\n".toList)) ++ rest) := by
      rw [Section.header.eq_def]
      split
      · simp_all
      · simp [String.toList_intercalate]
    have hstatements : Section.headerStatements (front ++ [name]) =
        [.blank, .header ⟨front, name⟩] := by
      simp [Section.headerStatements]
    have hline := line?_header hpath (by simpa using hlength) rest
    rw [hform, hstatements]
    refine statements?_cons (by simp) (line?_newline _) (statements?_cons (by simp) ?_ hrest)
    simpa using hline

theorem statements?_section {s : Section} (h : s.Readable)
    (hrest : statements? rest = some statements) :
    statements? (s.toChars ++ rest) = some (s.statements ++ statements) := by
  rw [Section.toChars, Section.statements, List.append_assoc, List.append_assoc]
  exact statements?_header h.path_bare h.path_length (statements?_pairs h.keys_bare h.fits hrest)

/-- **The lines of a document are its statements.** -/
theorem statements?_writeSections {sections : List Section} (h : ∀ s ∈ sections, s.Readable) :
    statements? (writeSections sections) = some (sections.flatMap Section.statements) := by
  induction sections with
  | nil =>
    rw [statements?.eq_def]
    rfl
  | cons s sections ih =>
    obtain ⟨hs, hsections⟩ := List.forall_mem_cons.mp h
    exact statements?_section hs (ih hsections)

/-! ## Tables -/

/-- A table that is the last entry of another: the entries before it, its key and its origin. -/
structure Level where
  front : Entries
  key : String
  origin : Origin

/-- Entries that lie in tables, each of them the last entry of the one around it. -/
def nest : List Level → Entries → Entries
  | [], inner => inner
  | level :: levels, inner => level.front ++ [(level.key, .table level.origin (nest levels inner))]

/-- No key on the way stands among the entries before it. -/
def Unique (levels : List Level) : Prop :=
  ∀ level ∈ levels, level.front.lookup level.key = none

theorem unique_nil : Unique [] := by
  intro level hlevel
  cases hlevel

theorem Unique.concat {levels : List Level} (h : Unique levels) {level : Level}
    (hlevel : level.front.lookup level.key = none) : Unique (levels ++ [level]) := by
  intro other hother
  rcases List.mem_append.mp hother with hmem | hmem
  · exact h other hmem
  · rw [List.mem_singleton.mp hmem]
    exact hlevel

theorem nest_concat (levels : List Level) (level : Level) (inner : Entries) :
    nest (levels ++ [level]) inner =
      nest levels (level.front ++ [(level.key, .table level.origin inner)]) := by
  induction levels with
  | nil => rfl
  | cons outer levels ih => rw [List.cons_append, nest, ih, nest]

namespace Entries

theorem lookup_last {front : Entries} (h : front.lookup key = none) (item : Item) :
    (front ++ [(key, item)]).lookup key = some item := by
  rw [List.lookup_append, h, Option.none_or, List.lookup_cons_self]

theorem lookup_eq_none_of_nodup {es : Entries} {keys : List String}
    (h : (es.map Prod.fst ++ keys).Nodup) (hkey : key ∈ keys) : es.lookup key = none := by
  rw [List.lookup_eq_none_iff]
  intro e he
  have hne := (List.nodup_append.mp h).2.2 e.1 (List.mem_map_of_mem he) key hkey
  simpa using Ne.symm hne

theorem replace_last {front : Entries} (h : front.lookup key = none) (old new : Item) :
    (front ++ [(key, old)]).replace key new = front ++ [(key, new)] := by
  have hfront : front.map (fun e => if e.1 = key then (key, new) else e) = front := by
    refine (List.map_congr_left fun e he => ?_).trans (List.map_id front)
    have hne := List.lookup_eq_none_iff.mp h e he
    rw [if_neg fun heq => by simp [heq] at hne]
    rfl
  rw [replace, List.map_append, hfront]
  simp

theorem updateAt?_last {front : Entries} (h : front.lookup key = none)
    (change : Origin → Entries → Option Entries) (path : List String) (outer origin : Origin)
    (inner : Entries) :
    updateAt? .implied change (key :: path) outer (front ++ [(key, .table origin inner)]) =
      (updateAt? .implied change path origin inner).map fun inner =>
        front ++ [(key, .table origin inner)] := by
  rw [updateAt?, lookup_last h]
  simp only [reduceCtorEq, false_and, if_false, replace_last h]

/-- A table that is missing on the way is made as if it were there without entries. -/
theorem updateAt?_missing {es : Entries} (h : es.lookup key = none)
    (change : Origin → Entries → Option Entries) (path : List String) (outer : Origin) :
    updateAt? .implied change (key :: path) outer es =
      updateAt? .implied change (key :: path) outer (es ++ [(key, .table .implied [])]) := by
  rw [updateAt?_last h, updateAt?, h]

/-- A change at the end of a path, where all tables on it are last entries. -/
theorem updateAt?_nest {levels : List Level} (h : Unique levels)
    (change : Entries → Option Entries) (outer : Origin) (inner : Entries) :
    updateAt? .implied (fun _ => change) (levels.map Level.key) outer (nest levels inner) =
      (change inner).map (nest levels) := by
  induction levels generalizing outer with
  | nil => exact Option.map_id'.symm
  | cons level levels ih =>
    obtain ⟨hlevel, hlevels⟩ := List.forall_mem_cons.mp h
    rw [List.map_cons, nest, updateAt?_last hlevel, ih hlevels, Option.map_map]
    rfl

end Entries

/-- The item of a key with its value. -/
def Section.entry (pair : String × Literal) : String × Item := (pair.1, .value pair.2.toValue)

theorem foldlM_cons_of_eq {state next : State} {statement : Statement}
    (h : state.run? statement = some next) (statements : List Statement) :
    (statement :: statements).foldlM State.run? state = statements.foldlM State.run? next := by
  rw [List.foldlM_cons, h]
  rfl

/-- Keys with their values fill the table that was opened last. -/
theorem run_pairs {levels : List Level} (h : Unique levels)
    (pairs : List (String × Literal)) (inner : Entries)
    (hkeys : (inner.map Prod.fst ++ pairs.map Prod.fst).Nodup) :
    (pairs.map Section.assignment).foldlM State.run? ⟨nest levels inner, levels.map Level.key⟩ =
      some ⟨nest levels (inner ++ pairs.map Section.entry), levels.map Level.key⟩ := by
  induction pairs generalizing inner with
  | nil => simp
  | cons pair pairs ih =>
    have hnew : inner.lookup pair.1 = none := Entries.lookup_eq_none_of_nodup hkeys (by simp)
    have hrun : State.run? ⟨nest levels inner, levels.map Level.key⟩ (Section.assignment pair) =
        some ⟨nest levels (inner ++ [Section.entry pair]), levels.map Level.key⟩ := by
      simp only [State.run?, Section.assignment, Entries.assignIn?, Entries.updateAt?_nest h]
      simp [Entries.assign?, Entries.updateAt?, Entries.insertNew?, hnew, Section.entry]
    rw [List.map_cons, foldlM_cons_of_eq hrun]
    refine (ih (inner ++ [Section.entry pair]) ?_).trans ?_
    · simpa [Section.entry] using hkeys
    · simp

theorem run_header {levels : List Level} (h : Unique levels)
    {name : String} {inner : Entries} (hname : inner.lookup name = none) (current : List String) :
    State.run? ⟨nest levels inner, current⟩ (.header ⟨levels.map Level.key, name⟩) =
      some ⟨nest (levels ++ [⟨inner, name, .header⟩]) [], levels.map Level.key ++ [name]⟩ := by
  simp only [State.run?, Entries.openTable?, Entries.updateAt?_nest h, hname, Option.map_some,
    nest_concat]

/-! ## Documents -/

theorem entryValues_eq (es : Entries) :
    Item.entryValues es = es.map fun e => (e.1, e.2.toValue) := by
  induction es with
  | nil => rfl
  | cons e es ih => rw [Item.entryValues, ih, List.map_cons]

/-- A section starts with a line end or a key, if it is not empty. -/
theorem Section.Readable.head?_toChars {s : Section} (h : s.Readable) :
    s.toChars.head? ≠ some '\ufeff' := by
  obtain ⟨path, pairs⟩ := s
  cases path with
  | nil =>
    cases pairs with
    | nil => simp [Section.toChars, Section.header]
    | cons pair pairs =>
      obtain ⟨c, cs, hkey, hc⟩ := (h.keys_bare pair List.mem_cons_self).exists_cons
      simp only [Section.toChars, Section.header, Section.pairLine, hkey, List.nil_append,
        List.flatMap_cons, List.cons_append, List.head?_cons]
      rintro ⟨⟩
      simp at hc
  | cons name path => simp [Section.toChars, Section.header]

theorem head?_writeSections {sections : List Section} (h : ∀ s ∈ sections, s.Readable) :
    (writeSections sections).head? ≠ some '\ufeff' := by
  induction sections with
  | nil => simp [writeSections]
  | cons s sections ih =>
    obtain ⟨hs, hsections⟩ := List.forall_mem_cons.mp h
    have hfirst := hs.head?_toChars
    rw [writeSections, List.flatMap_cons, List.head?_append]
    cases hchars : s.toChars.head? with
    | none => exact ih hsections
    | some c => rwa [hchars] at hfirst

/-- **A document is read as what its statements build.** -/
theorem read?_writeSections {sections : List Section} (h : ∀ s ∈ sections, s.Readable)
    {entries : Entries} {current : List String}
    (hrun : (sections.flatMap Section.statements).foldlM State.run? {} = some ⟨entries, current⟩) :
    read? (writeSections sections) = some (Item.entryValues entries) := by
  have hmark := head?_writeSections h
  have hskip : skipMark (writeSections sections) = writeSections sections := by
    rw [skipMark.eq_def]
    split
    · next heq => simp [heq] at hmark
    · rfl
  simp only [read?, hskip, statements?_writeSections h, Option.bind_eq_bind, Option.bind_some, hrun]
  rfl

end SourceEditor.Toml
