import SourceEditor.Settings.Basic
import Mathlib.Data.List.Induction

/-!
# The recent files

Settings keep a short list of the files that were opened last. A file that is opened comes to the
front of the list, where it stood before it is taken out, and what is beyond the limit is forgotten.
`Settings.recent_of_opened` says that nothing is lost by this: at any time the list is what all the
files that were ever opened give, latest first, with each file at its first occurrence only, and cut
once.

Two paths are of the same file if they have the same components. A file is listed under the name
that it was opened by last.
-/

namespace SourceEditor

namespace Path

variable {p q : Path} {files : List Path}

theorem same_iff : p.same q = true ↔ p.components = q.components := beq_iff_eq

theorem same_eq_false_iff : p.same q = false ↔ p.components ≠ q.components := beq_eq_false_iff_ne

/-! ## Files without a file -/

/-- The files of a list that are not the file of a path. -/
def without (p : Path) (files : List Path) : List Path := files.filter (!·.same p)

theorem without_of_same (h : q.components = p.components) (files : List Path) :
    p.without (q :: files) = p.without files :=
  List.filter_cons_of_neg (by simp [same_iff.mpr h])

theorem without_of_not_same (h : q.components ≠ p.components) (files : List Path) :
    p.without (q :: files) = q :: p.without files :=
  List.filter_cons_of_pos (by simp [same_eq_false_iff.mpr h])

theorem components_ne_of_mem_without (h : q ∈ p.without files) : p.components ≠ q.components := by
  have hnot := (List.mem_filter.mp h).2
  rw [Bool.not_eq_true', same_eq_false_iff] at hnot
  exact hnot.symm

theorem without_eq_self (h : ∀ q ∈ files, p.components ≠ q.components) :
    p.without files = files := by
  rw [without, List.filter_eq_self]
  intro q hq
  rw [Bool.not_eq_true', same_eq_false_iff]
  exact (h q hq).symm

theorem without_comm (p q : Path) (files : List Path) :
    p.without (q.without files) = q.without (p.without files) := by
  simp only [without, List.filter_filter, Bool.and_comm]

/-- Under which names a file is taken out twice does not matter. -/
theorem without_without (h : p.components = q.components) (files : List Path) :
    p.without (q.without files) = p.without files := by
  simp only [without, List.filter_filter, same, h, Bool.and_self]

/-! ## First occurrences -/

theorem eraseDupsBy_cons_without (p : Path) (files : List Path) :
    (p :: files).eraseDupsBy same = p :: (p.without files).eraseDupsBy same := by
  simp only [List.eraseDupsBy_cons, without, Bool.decide_eq_false]

/-- A file can be taken out before or after its repetitions are. -/
theorem without_eraseDupsBy (p : Path) (files : List Path) :
    p.without (files.eraseDupsBy same) = (p.without files).eraseDupsBy same := by
  -- the repetitions of the first file go before the rest is looked at, so the list is shorter then
  induction hn : files.length using Nat.strongRecOn generalizing files with
  | ind n ih =>
    cases files with
    | nil => rfl
    | cons q files =>
      have hrest : p.without ((q.without files).eraseDupsBy same) =
          (p.without (q.without files)).eraseDupsBy same := by
        refine ih _ ?_ _ rfl
        have := List.length_filter_le (!·.same q) files
        simp only [without, List.length_cons] at hn ⊢
        omega
      rw [eraseDupsBy_cons_without]
      by_cases h : q.components = p.components
      · rw [without_of_same h, without_of_same h, hrest, without_without h.symm]
      · rw [without_of_not_same h, without_of_not_same h, hrest, eraseDupsBy_cons_without,
          without_comm]

theorem eraseDupsBy_cons (p : Path) (files : List Path) :
    (p :: files).eraseDupsBy same = p :: p.without (files.eraseDupsBy same) := by
  rw [eraseDupsBy_cons_without, without_eraseDupsBy]

theorem pairwise_eraseDupsBy (files : List Path) :
    (files.eraseDupsBy same).Pairwise (fun p q => p.components ≠ q.components) := by
  induction files with
  | nil => exact List.Pairwise.nil
  | cons p files ih =>
    rw [eraseDupsBy_cons, List.pairwise_cons]
    exact ⟨fun q => components_ne_of_mem_without, ih.filter _⟩

/-- What is taken out of distinct files is one at most, so of one file more than are wanted enough
are left. -/
theorem take_without_take (h : files.Pairwise (fun p q => p.components ≠ q.components)) (p : Path)
    (n : Nat) : (p.without (files.take (n + 1))).take n = (p.without files).take n := by
  induction files generalizing n with
  | nil => rfl
  | cons q files ih =>
    obtain ⟨hq, hfiles⟩ := List.pairwise_cons.mp h
    rw [List.take_succ_cons]
    by_cases hsame : q.components = p.components
    · have hothers : ∀ r ∈ files, p.components ≠ r.components := hsame ▸ hq
      rw [without_of_same hsame, without_of_same hsame, without_eq_self hothers,
        without_eq_self fun r hr => hothers r (List.mem_of_mem_take hr), List.take_take,
        Nat.min_self]
    · rw [without_of_not_same hsame, without_of_not_same hsame]
      cases n with
      | zero => rfl
      | succ n => rw [List.take_succ_cons, List.take_succ_cons, ih hfiles]

end Path

/-! ## The list in the settings -/

namespace Settings

/-- The settings after files have been opened, with no others set. -/
def opened (files : List Path) : Settings where
  lastOpenedFile := files.getLast?
  recentFiles := (files.reverse.eraseDupsBy Path.same).take 10

/-- One more file is opened. -/
theorem remember_opened (files : List Path) (file : Path) :
    (opened files).remember file = opened (files ++ [file]) := by
  have hrecent : (file :: file.without ((files.reverse.eraseDupsBy Path.same).take 10)).take 10 =
      ((files ++ [file]).reverse.eraseDupsBy Path.same).take 10 := by
    rw [List.reverse_append, List.reverse_singleton, List.singleton_append, Path.eraseDupsBy_cons,
      List.take_succ_cons, List.take_succ_cons,
      Path.take_without_take (Path.pairwise_eraseDupsBy _)]
  simp only [remember, opened, List.getLast?_concat, ← hrecent]
  rfl

theorem foldl_remember (files : List Path) : files.foldl remember {} = opened files := by
  induction files using List.reverseRecOn with
  | nil => rfl
  | append_singleton files file ih =>
    rw [List.foldl_append, ih, List.foldl_cons, List.foldl_nil, remember_opened]

/-- **The recent files are the files opened last**, each of them once. -/
theorem recent_of_opened (files : List Path) :
    let s := files.foldl remember {}
    s.lastOpenedFile = files.getLast? ∧
      s.recentFiles = (files.reverse.eraseDupsBy Path.same).take 10 ∧
      s.recentFiles.length ≤ 10 ∧ s.recentFiles.Pairwise (fun p q => p.same q = false) := by
  intro s
  have hs : s = opened files := foldl_remember files
  rw [hs]
  refine ⟨rfl, rfl, List.length_take_le _ _, ?_⟩
  refine ((Path.pairwise_eraseDupsBy files.reverse).imp ?_).take
  intro p q hne
  exact Path.same_eq_false_iff.mpr hne

-- a file that is opened again under another name
example : (([['a'], ['b'], ['a', '/']].map Path.mk).foldl remember {}).recentFiles =
    [⟨['a', '/']⟩, ⟨['b']⟩] := by decide

end Settings

end SourceEditor
