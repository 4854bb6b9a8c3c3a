/-!
# Changing a range

Styles are given to ranges of characters. `changeRange` changes the elements of a list at the
offsets of a range and no others: `getElem?_changeRange` says so offset by offset. What lies past
the end of the list is dropped from the range.
-/

namespace SourceEditor

/-- Changes `count` elements of a list from the offset `start` on, as far as the list goes. -/
def changeRange {α : Type} (change : α → α) : (start count : Nat) → List α → List α
  | _, _, [] => []
  | _, 0, as => as
  | 0, count + 1, a :: as => change a :: changeRange change 0 count as
  | start + 1, count + 1, a :: as => a :: changeRange change start (count + 1) as

variable {α : Type} {change : α → α}

@[simp]
theorem changeRange_zero (start : Nat) (as : List α) : changeRange change start 0 as = as := by
  cases as <;> simp [changeRange]

@[simp]
theorem length_changeRange (start count : Nat) (as : List α) :
    (changeRange change start count as).length = as.length := by
  fun_induction changeRange change start count as <;> simp_all

theorem getElem?_changeRange (start count : Nat) (as : List α) (i : Nat) :
    (changeRange change start count as)[i]? =
      if start ≤ i ∧ i < start + count then as[i]?.map change else as[i]? := by
  fun_induction changeRange change start count as generalizing i with
  | case1 => simp
  | case2 start as =>
    rw [if_neg]
    omega
  | case3 count a as ih =>
    cases i with
    | zero => simp
    | succ i =>
      have same : (0 ≤ i ∧ i < 0 + count) ↔ (0 ≤ i + 1 ∧ i + 1 < 0 + (count + 1)) := by omega
      simp only [List.getElem?_cons_succ, ih, same]
  | case4 start count a as ih =>
    cases i with
    | zero => simp
    | succ i =>
      have same : (start ≤ i ∧ i < start + (count + 1)) ↔
          (start + 1 ≤ i + 1 ∧ i + 1 < start + 1 + (count + 1)) := by omega
      simp only [List.getElem?_cons_succ, ih, same]

end SourceEditor
