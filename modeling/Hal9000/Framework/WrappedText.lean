import Mathlib.Data.List.Basic

/-!
# Wrapped text

A text as the rows it fills on a page of some width: the rows that are complete, and the one that
is being written, which is broken when it is as long as the page is wide. A window shows the last
rows; a row that nothing is written on yet needs no place in it.
-/

namespace Hal9000

/-- The row being written is never full. -/
structure WrappedText (width : Nat) (Cell : Type*) where
  done : List (List Cell)
  current : List Cell
  current_lt : current.length < width

namespace WrappedText

variable {width : Nat} {Cell : Type*}

def empty (hwidth : 0 < width) : WrappedText width Cell where
  done := []
  current := []
  current_lt := hwidth

def breakRow (text : WrappedText width Cell) : WrappedText width Cell where
  done := text.done ++ [text.current]
  current := []
  current_lt := Nat.lt_of_le_of_lt (Nat.zero_le _) text.current_lt

def put (text : WrappedText width Cell) (cell : Cell) : WrappedText width Cell :=
  if hlt : text.current.length + 1 < width then
    ⟨text.done,text.current ++ [cell],by rwa [List.length_append]⟩
  else
    ⟨text.done ++ [text.current ++ [cell]],[],Nat.lt_of_le_of_lt (Nat.zero_le _) text.current_lt⟩

/-- A cell that breaks the row is not written itself. -/
def push (breaks : Cell → Bool) (text : WrappedText width Cell) (cell : Cell) :
    WrappedText width Cell :=
  if breaks cell then text.breakRow else text.put cell

/-- The rows with something in them, or before one with something in it. -/
def rows (text : WrappedText width Cell) : List (List Cell) :=
  if text.current = [] then text.done else text.done ++ [text.current]

def lastRows (text : WrappedText width Cell) (height : Nat) : List (List Cell) :=
  text.rows.drop (text.rows.length - height)

/-- A row by its number; those that are not begun are empty. -/
def row (text : WrappedText width Cell) (i : Nat) : List Cell :=
  (text.done ++ [text.current])[i]?.getD []

variable {text : WrappedText width Cell}

@[simp] theorem row_empty (hwidth : 0 < width) (i : Nat) :
    (empty hwidth : WrappedText width Cell).row i = [] := by
  cases i <;> simp [row,empty]

@[simp] theorem row_breakRow (i : Nat) : text.breakRow.row i = text.row i := by
  simp only [row,breakRow]
  by_cases hlt : i < (text.done ++ [text.current]).length
  · rw [List.getElem?_append_left hlt]
  · rw [List.getElem?_append_right (Nat.le_of_not_lt hlt),
      List.getElem?_eq_none (Nat.le_of_not_lt hlt)]
    cases i - (text.done ++ [text.current]).length <;> simp

theorem row_current : text.row text.done.length = text.current := by
  simp [row]

theorem row_append (done : List (List Cell)) (current other : List Cell)
    (hcurrent : current.length < width) (hother : other.length < width) {i : Nat}
    (hi : i ≠ done.length) :
    (⟨done,current,hcurrent⟩ : WrappedText width Cell).row i =
      (⟨done,other,hother⟩ : WrappedText width Cell).row i := by
  simp only [row]
  by_cases hlt : i < done.length
  · rw [List.getElem?_append_left hlt,List.getElem?_append_left hlt]
  · rw [List.getElem?_eq_none (by simp; omega),List.getElem?_eq_none (by simp; omega)]

theorem row_put (cell : Cell) (i : Nat) : (text.put cell).row i =
    if i = text.done.length then text.current ++ [cell] else text.row i := by
  have hwidth : 0 < width := Nat.lt_of_le_of_lt (Nat.zero_le _) text.current_lt
  by_cases hi : i = text.done.length
  · subst hi
    simp only [put,if_true]
    split <;> simp [row]
  · rw [if_neg hi,put]
    split
    · exact row_append _ _ _ _ _ hi
    · simp only [row]
      by_cases hlt : i < text.done.length
      · simp [hlt,List.getElem?_append_left,Nat.lt_succ_of_lt hlt]
      · obtain ⟨more,rfl⟩ := Nat.exists_eq_add_of_lt (by omega : text.done.length < i)
        rw [List.getElem?_eq_none (by simp : (text.done ++ [text.current]).length ≤ _),
          List.getElem?_append_right (by simp)]
        cases more <;> simp

theorem lastRows_row (height i : Nat) :
    (text.lastRows height)[i]?.getD [] = text.row (text.rows.length - height + i) := by
  rw [lastRows,List.getElem?_drop,row]
  generalize text.rows.length - height + i = j
  unfold rows
  split
  · rename_i hempty
    rw [hempty]
    by_cases hlt : j < text.done.length
    · rw [List.getElem?_append_left hlt]
    · rw [List.getElem?_append_right (Nat.le_of_not_lt hlt),
        List.getElem?_eq_none (Nat.le_of_not_lt hlt)]
      cases j - text.done.length <;> simp
  · rfl

end WrappedText

end Hal9000
