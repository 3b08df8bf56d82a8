import Hal9000.Common.Machine
import Hal9000.Framework.WrappedText

/-!
# The text screen

`DispPrintString` writes characters at a cursor. The cursor moves to the next line at a newline and
behind the last column; past the last usable line the screen is scrolled when the next character
comes. What the usable lines show is the end of the text, wrapped at the width of the screen.
-/

namespace Hal9000

def charsPerLine : Nat := 80
def bytesPerLine : Nat := 160
def bytesPerChar : Nat := 2
def linesPerScreen : Nat := 25
def whiteColor : Nat := 7

structure ScreenCharacter where
  color : Nat
  character : Char
  deriving DecidableEq

/-- What `memzero` leaves. -/
def ScreenCharacter.zero : ScreenCharacter := ⟨0,'\x00'⟩

/-- The video memory by line and column, and where it has been written. -/
structure ScreenMemory where
  cell : Nat → Nat → ScreenCharacter
  written : Nat → Nat → Bool

def ScreenMemory.write (memory : ScreenMemory) (region : Nat → Nat → Bool)
    (value : Nat → Nat → ScreenCharacter) : ScreenMemory where
  cell line column := if region line column then value line column else memory.cell line column
  written line column := memory.written line column || region line column

/-- Whole lines. -/
def linesFrom (first count : Nat) (line column : Nat) : Bool :=
  decide (first ≤ line ∧ line < first + count ∧ column < charsPerLine)

/-- `StartOfUsableScreen` is kept as the line it points to. -/
structure DisplayData where
  memory : ScreenMemory
  startOfUsableScreen : Nat
  totalUsableCharacters : Nat
  totalUsableBytes : Nat
  currentColumn : Nat
  currentLine : Nat
  currentColor : Nat
  indexOfFirstValidLine : Nat
  indexOfFirstInvalidLine : Nat

namespace DisplayData

variable (data : DisplayData)

def setMemory (memory : ScreenMemory) : DisplayData := { data with memory }

def dispSetColor (color : Nat) : DisplayData := { data with currentColor := color }

def dispClearLine (line : Nat) : DisplayData :=
  data.setMemory (data.memory.write (linesFrom line 1) fun _ _ => .zero)

def dispClearScreen : DisplayData :=
  let memory := data.memory.write
    (linesFrom data.startOfUsableScreen (data.totalUsableBytes / bytesPerLine)) fun _ _ => .zero
  { data with memory, currentLine := data.indexOfFirstValidLine }

/-- `_DispPutChar`. -/
def dispPutChar (character : Char) (line column : Nat) : DisplayData :=
  data.setMemory (data.memory.write (fun line' column' => line' == line && column' == column)
    fun _ _ => ⟨data.currentColor,character⟩)

/-- The `memmove` of `_DispScrollScreen`: all lines but the last are read from the line below. -/
def moveLinesUp : DisplayData :=
  data.setMemory (data.memory.write
    (linesFrom data.startOfUsableScreen ((data.totalUsableBytes - bytesPerLine) / bytesPerLine))
    fun line column => data.memory.cell (line + 1) column)

def lineUp : DisplayData := { data with currentLine := (data.currentLine + 255) % 256 }

/-- `_DispScrollScreen`. -/
def dispScrollScreen : DisplayData :=
  data.moveLinesUp.lineUp.dispClearLine data.lineUp.currentLine

/-- What `DispPrintString` does before each character. -/
def scrollIfNeeded : DisplayData :=
  if data.indexOfFirstInvalidLine = data.currentLine then data.dispScrollScreen else data

def newline : DisplayData :=
  { data with currentLine := (data.currentLine + 1) % 256, currentColumn := 0 }

def nextColumn : DisplayData :=
  { data with currentColumn := (data.currentColumn + 1) % 256 }

/-- A printable character, with the newline behind the last column. -/
def placeChar (character : Char) : DisplayData :=
  let data' := (data.dispPutChar character data.currentLine data.currentColumn).nextColumn
  if charsPerLine = data'.currentColumn then data'.newline else data'

end DisplayData

/-- How much a character takes of the string: a tab prints four more. -/
def charWeight (character : Char) : Nat := if character = '\t' then 5 else 1

def tabSpaces : List Char := [' ',' ',' ',' ']

def dispPrintString (data : DisplayData) : List Char → DisplayData
  | [] => data
  | character :: rest =>
    if character = '\x00' then data
    else if character = '\n' then dispPrintString data.scrollIfNeeded.newline rest
    else if character = '\t' then
      dispPrintString (dispPrintString data.scrollIfNeeded tabSpaces) rest
    else dispPrintString (data.scrollIfNeeded.placeChar character) rest
termination_by buffer => (buffer.map charWeight).sum
decreasing_by
  · simp only [List.map_cons,List.sum_cons,charWeight]
    split <;> omega
  · rename_i htab
    simp only [tabSpaces,List.map_cons,List.map_nil,List.sum_cons,List.sum_nil,charWeight,htab,
      Char.reduceEq,if_true,if_false]
    omega
  · simp only [List.map_cons,List.sum_cons,charWeight]
    split <;> omega
  · simp only [List.map_cons,List.sum_cons,charWeight]
    split <;> omega

/-- `DispPreinitScreen`. -/
def dispPreinitScreen (memory : ScreenMemory) (indexOfFirstUsableRow indexOfFirstUnusableRow : Nat) :
    DisplayData :=
  let totalUsableCharacters := (indexOfFirstUnusableRow - indexOfFirstUsableRow) * charsPerLine
  DisplayData.dispClearScreen {
    memory
    startOfUsableScreen := indexOfFirstUsableRow
    totalUsableCharacters
    totalUsableBytes := bytesPerChar * totalUsableCharacters
    currentColumn := 0
    currentLine := indexOfFirstUsableRow
    currentColor := whiteColor
    indexOfFirstValidLine := indexOfFirstUsableRow
    indexOfFirstInvalidLine := indexOfFirstUnusableRow }

/-- A string to print, and the color that is set before. -/
structure DispCall where
  color : Nat
  buffer : List Char

def dispCalls (data : DisplayData) (calls : List DispCall) : DisplayData :=
  calls.foldl (fun data call => dispPrintString (data.dispSetColor call.color) call.buffer) data

/-- The characters up to the terminator, with the tabs expanded. -/
def expandTabs (buffer : List Char) : List Char :=
  (buffer.takeWhile (· ≠ '\x00')).flatMap fun character =>
    if character = '\t' then tabSpaces else [character]

def DispCall.text (call : DispCall) : List ScreenCharacter :=
  (expandTabs call.buffer).map fun character => ⟨call.color,character⟩

def breaksRow (cell : ScreenCharacter) : Bool := cell.character == '\n'

/-- The text that the calls print, wrapped at the width of the screen. -/
def printedText (calls : List DispCall) : WrappedText charsPerLine ScreenCharacter :=
  (calls.flatMap DispCall.text).foldl (WrappedText.push breaksRow) (.empty (by decide))

/-- What one character of the expanded text does. -/
def printChar (data : DisplayData) (character : Char) : DisplayData :=
  if character = '\n' then data.scrollIfNeeded.newline else data.scrollIfNeeded.placeChar character

namespace DisplayData

variable {data : DisplayData}

theorem scrollIfNeeded_scrollIfNeeded :
    data.scrollIfNeeded.scrollIfNeeded = data.scrollIfNeeded := by
  unfold scrollIfNeeded
  by_cases hline : data.indexOfFirstInvalidLine = data.currentLine
  · simp only [if_pos hline]
    have hne : data.dispScrollScreen.indexOfFirstInvalidLine ≠
        data.dispScrollScreen.currentLine := by
      change data.indexOfFirstInvalidLine ≠ (data.currentLine + 255) % 256
      omega
    rw [if_neg hne]
  · simp only [if_neg hline]

end DisplayData

theorem dispPrintString_spaces (data : DisplayData) :
    dispPrintString data.scrollIfNeeded tabSpaces = tabSpaces.foldl printChar data := by
  simp [tabSpaces,dispPrintString,printChar,DisplayData.scrollIfNeeded_scrollIfNeeded]

theorem dispPrintString_eq (data : DisplayData) (buffer : List Char) :
    dispPrintString data buffer = (expandTabs buffer).foldl printChar data := by
  induction buffer generalizing data with
  | nil => simp [dispPrintString,expandTabs]
  | cons character rest ih =>
    rw [dispPrintString]
    by_cases hend : character = '\x00'
    · simp [expandTabs,hend]
    · have htake : expandTabs (character :: rest) =
          (if character = '\t' then tabSpaces else [character]) ++ expandTabs rest := by
        simp [expandTabs,hend]
      rw [if_neg hend,htake,List.foldl_append]
      by_cases hnewline : character = '\n'
      · simp [hnewline,ih,printChar]
      · by_cases htab : character = '\t'
        · rw [if_neg hnewline,if_pos htab,if_pos htab,dispPrintString_spaces,ih]
        · rw [if_neg hnewline,if_neg htab,if_neg htab,ih]
          simp [printChar,hnewline]

/-- The fields that are set once, by `DispPreinitScreen`. -/
structure DisplayData.WellFormed (data : DisplayData) : Prop where
  start : data.startOfUsableScreen = data.indexOfFirstValidLine
  bytes : data.totalUsableBytes =
    (data.indexOfFirstInvalidLine - data.indexOfFirstValidLine) * bytesPerLine
  usable : data.indexOfFirstValidLine < data.indexOfFirstInvalidLine
  lines : data.indexOfFirstInvalidLine ≤ linesPerScreen

/-- The usable lines show the rows of the text from `off` on, and the cursor is at its end. -/
structure ShowsFrom (data : DisplayData) (text : WrappedText charsPerLine ScreenCharacter)
    (off : Nat) : Prop where
  wellFormed : data.WellFormed
  column : data.currentColumn = text.current.length
  scrolled : off ≤ text.done.length
  line : data.currentLine = data.indexOfFirstValidLine + (text.done.length - off)
  inside : data.currentLine ≤ data.indexOfFirstInvalidLine
  past : data.currentLine = data.indexOfFirstInvalidLine → text.current = []
  cells : ∀ line column, data.indexOfFirstValidLine + line < data.indexOfFirstInvalidLine →
    column < charsPerLine → data.memory.cell (data.indexOfFirstValidLine + line) column =
      (text.row (off + line))[column]?.getD .zero

/-- Between two characters no line is scrolled that is not needed. -/
def Shows (data : DisplayData) (text : WrappedText charsPerLine ScreenCharacter) : Prop :=
  ∃ off, ShowsFrom data text off ∧ (off = 0 ∨ data.currentLine = data.indexOfFirstInvalidLine ∨
    data.currentLine + 1 = data.indexOfFirstInvalidLine ∧ text.current ≠ [])

/-- What has been written lies in the usable lines, and the rest is as at the start. -/
structure Confined (start : ScreenMemory) (first unusable : Nat) (data : DisplayData) : Prop where
  first_eq : data.indexOfFirstValidLine = first
  unusable_eq : data.indexOfFirstInvalidLine = unusable
  written : ∀ line column, data.memory.written line column = true →
    data.indexOfFirstValidLine ≤ line ∧ line < data.indexOfFirstInvalidLine ∧
      column < charsPerLine
  kept : ∀ line column, data.memory.written line column = false →
    data.memory.cell line column = start.cell line column

section Show

variable {data : DisplayData} {start : ScreenMemory} {first unusable : Nat}
variable {text : WrappedText charsPerLine ScreenCharacter} {off : Nat}

@[simp] theorem linesFrom_eq_true {first count line column : Nat} :
    linesFrom first count line column = true ↔
      first ≤ line ∧ line < first + count ∧ column < charsPerLine := by
  simp [linesFrom]

theorem Confined.setMemory (h : Confined start first unusable data) {region : Nat → Nat → Bool}
    {value : Nat → Nat → ScreenCharacter}
    (hregion : ∀ line column, region line column = true →
      data.indexOfFirstValidLine ≤ line ∧ line < data.indexOfFirstInvalidLine ∧
        column < charsPerLine) :
    Confined start first unusable (data.setMemory (data.memory.write region value)) := by
  refine ⟨h.first_eq,h.unusable_eq,?_,?_⟩
  · intro line column hwritten
    rcases Bool.or_eq_true_iff.mp hwritten with hwritten | hin
    · exact h.written line column hwritten
    · exact hregion line column hin
  · intro line column hwritten
    obtain ⟨hwritten,hout⟩ := Bool.or_eq_false_iff.mp hwritten
    simp only [DisplayData.setMemory,ScreenMemory.write,hout,Bool.false_eq_true,if_false]
    exact h.kept line column hwritten

theorem Confined.setCursor (h : Confined start first unusable data) (line column : Nat) :
    Confined start first unusable { data with currentLine := line, currentColumn := column } :=
  ⟨h.first_eq,h.unusable_eq,h.written,h.kept⟩

theorem moved_lines (h : data.WellFormed) :
    (data.totalUsableBytes - bytesPerLine) / bytesPerLine =
      data.indexOfFirstInvalidLine - data.indexOfFirstValidLine - 1 := by
  rw [h.bytes,← Nat.sub_one_mul,Nat.mul_div_cancel _ (by decide)]

theorem Confined.dispScrollScreen (h : Confined start first unusable data) (hwf : data.WellFormed)
    (hline : data.currentLine = data.indexOfFirstInvalidLine) :
    Confined start first unusable data.dispScrollScreen := by
  have husable := hwf.usable
  have hlines : data.indexOfFirstInvalidLine ≤ 25 := hwf.lines
  have hmoved : Confined start first unusable data.moveLinesUp := by
    refine h.setMemory ?_
    intro line column hin
    rw [moved_lines hwf,hwf.start,linesFrom_eq_true] at hin
    exact ⟨hin.1,by omega,hin.2.2⟩
  refine (hmoved.setCursor _ _).setMemory ?_
  intro line column hin
  rw [linesFrom_eq_true] at hin
  change data.indexOfFirstValidLine ≤ line ∧ line < data.indexOfFirstInvalidLine ∧ _
  have hup : data.lineUp.currentLine = (data.currentLine + 255) % 256 := rfl
  exact ⟨by omega,by omega,hin.2.2⟩

theorem ShowsFrom.dispScrollScreen (h : ShowsFrom data text off)
    (hline : data.currentLine = data.indexOfFirstInvalidLine) :
    ShowsFrom data.dispScrollScreen text (off + 1) := by
  have husable := h.wellFormed.usable
  have hlines : data.indexOfFirstInvalidLine ≤ 25 := h.wellFormed.lines
  have hscrolled := h.scrolled
  have hat := h.line
  have hcurrent : text.current = [] := h.past hline
  have hup : data.dispScrollScreen.currentLine + 1 = data.indexOfFirstInvalidLine := by
    change (data.currentLine + 255) % 256 + 1 = _
    omega
  refine ⟨⟨h.wellFormed.start,h.wellFormed.bytes,husable,h.wellFormed.lines⟩,h.column,
    by omega,?_,?_,fun _ => hcurrent,?_⟩
  · change _ = data.indexOfFirstValidLine + _
    omega
  · change _ ≤ data.indexOfFirstInvalidLine
    omega
  · intro line column hin hcolumn
    change data.indexOfFirstValidLine + line < data.indexOfFirstInvalidLine at hin
    change (if linesFrom data.lineUp.currentLine 1 (data.indexOfFirstValidLine + line) column then _
      else if linesFrom data.startOfUsableScreen _ (data.indexOfFirstValidLine + line) column then
        data.memory.cell (data.indexOfFirstValidLine + line + 1) column else _) = _
    have hlast : data.lineUp.currentLine + 1 = data.indexOfFirstInvalidLine := hup
    by_cases hend : data.indexOfFirstValidLine + line + 1 = data.indexOfFirstInvalidLine
    · rw [if_pos (linesFrom_eq_true.mpr ⟨by omega,by omega,hcolumn⟩),
        show off + 1 + line = text.done.length by omega,WrappedText.row_current,hcurrent]
      rfl
    · rw [if_neg (by rw [linesFrom_eq_true]; omega),
        if_pos (by rw [linesFrom_eq_true,moved_lines h.wellFormed,h.wellFormed.start]; omega),
        Nat.add_assoc,h.cells (line + 1) column (by omega) hcolumn]
      rw [show off + (line + 1) = off + 1 + line by omega]

theorem ShowsFrom.newline (h : ShowsFrom data text off)
    (hlt : data.currentLine < data.indexOfFirstInvalidLine) :
    ShowsFrom data.newline text.breakRow off := by
  have hlines : data.indexOfFirstInvalidLine ≤ 25 := h.wellFormed.lines
  have hscrolled := h.scrolled
  have hat := h.line
  have hdone : text.breakRow.done.length = text.done.length + 1 := by
    simp [WrappedText.breakRow]
  have hnext : data.newline.currentLine = data.currentLine + 1 := by
    change (data.currentLine + 1) % 256 = _
    omega
  refine ⟨⟨h.wellFormed.start,h.wellFormed.bytes,h.wellFormed.usable,h.wellFormed.lines⟩,rfl,
    by omega,?_,?_,fun _ => rfl,?_⟩
  · change _ = data.indexOfFirstValidLine + _
    omega
  · change _ ≤ data.indexOfFirstInvalidLine
    omega
  · intro line column hin hcolumn
    rw [WrappedText.row_breakRow]
    exact h.cells line column hin hcolumn

theorem ShowsFrom.putCells (h : ShowsFrom data text off) (character : Char) (line column : Nat)
    (hin : data.indexOfFirstValidLine + line < data.indexOfFirstInvalidLine)
    (hcolumn : column < charsPerLine) :
    (data.dispPutChar character data.currentLine data.currentColumn).memory.cell
        (data.indexOfFirstValidLine + line) column =
      ((text.put ⟨data.currentColor,character⟩).row (off + line))[column]?.getD .zero := by
  have hscrolled := h.scrolled
  have hat := h.line
  change (if (data.indexOfFirstValidLine + line == data.currentLine &&
    column == data.currentColumn) = true then _ else data.memory.cell _ column) = _
  rw [WrappedText.row_put,h.cells line column hin hcolumn,h.column]
  by_cases hrow : off + line = text.done.length
  · have hcursor : data.indexOfFirstValidLine + line = data.currentLine := by omega
    rw [if_pos hrow,hrow,WrappedText.row_current,hcursor]
    by_cases hend : column = text.current.length
    · simp [hend]
    · have hsame : (text.current ++ [⟨data.currentColor,character⟩])[column]? =
          text.current[column]? := by
        rcases Nat.lt_or_gt_of_ne hend with hlt | hgt
        · exact List.getElem?_append_left hlt
        · rw [List.getElem?_eq_none (Nat.le_of_lt hgt),List.getElem?_eq_none (by simp; omega)]
      simp [hend,hsame]
  · have hcursor : data.indexOfFirstValidLine + line ≠ data.currentLine := by omega
    rw [if_neg hrow]
    simp [hcursor]

theorem ShowsFrom.placeChar (h : ShowsFrom data text off) (character : Char)
    (hlt : data.currentLine < data.indexOfFirstInvalidLine) :
    ShowsFrom (data.placeChar character) (text.put ⟨data.currentColor,character⟩) off := by
  have hlines : data.indexOfFirstInvalidLine ≤ 25 := h.wellFormed.lines
  have hscrolled := h.scrolled
  have hat := h.line
  have hcolumn := h.column
  have hroom : text.current.length < 80 := text.current_lt
  have hcells := h.putCells character
  have hwf : data.WellFormed := h.wellFormed
  have hnext : (data.dispPutChar character data.currentLine
      data.currentColumn).nextColumn.currentColumn = text.current.length + 1 := by
    change (data.currentColumn + 1) % 256 = _
    omega
  simp only [DisplayData.placeChar,hnext]
  by_cases hfull : text.current.length + 1 < charsPerLine
  · have hput : text.put ⟨data.currentColor,character⟩ =
        ⟨text.done,text.current ++ [⟨data.currentColor,character⟩],by simpa using hfull⟩ := by
      rw [WrappedText.put,dif_pos hfull]
    rw [if_neg (Nat.ne_of_gt hfull)]
    rw [hput] at hcells ⊢
    refine ⟨⟨hwf.start,hwf.bytes,hwf.usable,hwf.lines⟩,?_,hscrolled,hat,h.inside,?_,hcells⟩
    · rw [hnext]
      simp
    · intro hpast
      exact absurd hpast (Nat.ne_of_lt hlt)
  · have hput : text.put ⟨data.currentColor,character⟩ =
        ⟨text.done ++ [text.current ++ [⟨data.currentColor,character⟩]],[],by decide⟩ := by
      rw [WrappedText.put,dif_neg hfull]
    have heq : charsPerLine = text.current.length + 1 := by
      simp only [charsPerLine] at hfull ⊢
      omega
    have hline : (data.currentLine + 1) % 256 = data.currentLine + 1 := by omega
    rw [if_pos heq]
    rw [hput] at hcells ⊢
    refine ⟨⟨hwf.start,hwf.bytes,hwf.usable,hwf.lines⟩,rfl,?_,?_,?_,fun _ => rfl,hcells⟩
    · simp only [List.length_append,List.length_cons,List.length_nil]
      omega
    · change (data.currentLine + 1) % 256 = data.indexOfFirstValidLine + _
      simp only [List.length_append,List.length_cons,List.length_nil]
      omega
    · change (data.currentLine + 1) % 256 ≤ data.indexOfFirstInvalidLine
      omega

theorem Confined.placeChar (h : Confined start first unusable data) (hshows : ShowsFrom data text off)
    (character : Char) (hlt : data.currentLine < data.indexOfFirstInvalidLine) :
    Confined start first unusable (data.placeChar character) := by
  have hat := hshows.line
  have hroom := text.current_lt
  have hput : Confined start first unusable
      (data.dispPutChar character data.currentLine data.currentColumn) := by
    refine h.setMemory ?_
    intro line column hin
    rw [Bool.and_eq_true,beq_iff_eq,beq_iff_eq] at hin
    rw [hin.1,hin.2,hshows.column]
    exact ⟨by omega,hlt,hroom⟩
  simp only [DisplayData.placeChar]
  split
  · exact hput.setCursor _ _
  · exact hput.setCursor _ _

theorem Shows.scrollIfNeeded (h : Shows data text) (hconfined : Confined start first unusable data) :
    ∃ off, ShowsFrom data.scrollIfNeeded text off ∧
      (off = 0 ∨
        data.scrollIfNeeded.currentLine + 1 = data.scrollIfNeeded.indexOfFirstInvalidLine) ∧
      data.scrollIfNeeded.currentLine < data.scrollIfNeeded.indexOfFirstInvalidLine ∧
      Confined start first unusable data.scrollIfNeeded ∧
      data.scrollIfNeeded.currentColor = data.currentColor := by
  obtain ⟨off,hshows,hneeded⟩ := h
  unfold DisplayData.scrollIfNeeded
  by_cases hline : data.indexOfFirstInvalidLine = data.currentLine
  · rw [if_pos hline]
    have hup : data.dispScrollScreen.currentLine + 1 = data.indexOfFirstInvalidLine := by
      have husable := hshows.wellFormed.usable
      have hlines : data.indexOfFirstInvalidLine ≤ 25 := hshows.wellFormed.lines
      change (data.currentLine + 255) % 256 + 1 = _
      omega
    exact ⟨off + 1,hshows.dispScrollScreen hline.symm,Or.inr hup,
      Nat.lt_of_succ_le (Nat.le_of_eq hup),
      hconfined.dispScrollScreen hshows.wellFormed hline.symm,rfl⟩
  · rw [if_neg hline]
    have hinside := hshows.inside
    refine ⟨off,hshows,?_,by omega,hconfined,rfl⟩
    rcases hneeded with hzero | hpast | ⟨hlast,_⟩
    · exact Or.inl hzero
    · exact absurd hpast.symm hline
    · exact Or.inr hlast

theorem ShowsFrom.shows_newline (h : ShowsFrom data text off)
    (hneeded : off = 0 ∨ data.currentLine + 1 = data.indexOfFirstInvalidLine)
    (hlt : data.currentLine < data.indexOfFirstInvalidLine) :
    Shows data.newline text.breakRow := by
  refine ⟨off,h.newline hlt,?_⟩
  rcases hneeded with hzero | hlast
  · exact Or.inl hzero
  · have hlines : data.indexOfFirstInvalidLine ≤ 25 := h.wellFormed.lines
    right; left
    change (data.currentLine + 1) % 256 = data.indexOfFirstInvalidLine
    omega

theorem ShowsFrom.shows_placeChar (h : ShowsFrom data text off) (character : Char)
    (hneeded : off = 0 ∨ data.currentLine + 1 = data.indexOfFirstInvalidLine)
    (hlt : data.currentLine < data.indexOfFirstInvalidLine) :
    Shows (data.placeChar character) (text.put ⟨data.currentColor,character⟩) := by
  refine ⟨off,h.placeChar character hlt,?_⟩
  rcases hneeded with hzero | hlast
  · exact Or.inl hzero
  · right
    have hlines : data.indexOfFirstInvalidLine ≤ 25 := h.wellFormed.lines
    simp only [DisplayData.placeChar,WrappedText.put]
    split
    · left
      change (data.currentLine + 1) % 256 = data.indexOfFirstInvalidLine
      omega
    · rename_i hne
      right
      have hroom : text.current.length < 80 := text.current_lt
      have hcolumn := h.column
      have hnext : (data.dispPutChar character data.currentLine
          data.currentColumn).nextColumn.currentColumn = text.current.length + 1 := by
        change (data.currentColumn + 1) % 256 = _
        omega
      rw [hnext] at hne
      have hfull : text.current.length + 1 < charsPerLine := by
        simp only [charsPerLine] at hne ⊢
        omega
      refine ⟨hlast,?_⟩
      rw [dif_pos hfull]
      simp

theorem Shows.printChar (h : Shows data text) (hconfined : Confined start first unusable data)
    (character : Char) :
    Shows (Hal9000.printChar data character)
        (text.push breaksRow ⟨data.currentColor,character⟩) ∧
      Confined start first unusable (Hal9000.printChar data character) ∧
      (Hal9000.printChar data character).currentColor = data.currentColor := by
  obtain ⟨off,hshows,hneeded,hlt,hconfined,hcolor⟩ := h.scrollIfNeeded hconfined
  by_cases hnewline : character = '\n'
  · simp only [Hal9000.printChar,WrappedText.push,breaksRow,hnewline,beq_self_eq_true,if_true]
    exact ⟨hshows.shows_newline hneeded hlt,hconfined.setCursor _ _,hcolor⟩
  · simp only [Hal9000.printChar,WrappedText.push,breaksRow,hnewline,beq_iff_eq,if_false]
    rw [← hcolor]
    refine ⟨hshows.shows_placeChar character hneeded hlt,
      hconfined.placeChar hshows character hlt,?_⟩
    simp only [DisplayData.placeChar]
    split <;> rfl

theorem Shows.printChars (h : Shows data text) (hconfined : Confined start first unusable data)
    (characters : List Char) :
    Shows (characters.foldl Hal9000.printChar data)
        ((characters.map fun character => ⟨data.currentColor,character⟩).foldl
          (WrappedText.push breaksRow) text) ∧
      Confined start first unusable (characters.foldl Hal9000.printChar data) := by
  induction characters generalizing data text with
  | nil => exact ⟨h,hconfined⟩
  | cons character rest ih =>
    obtain ⟨hshows,hconfined,hcolor⟩ := h.printChar hconfined character
    have hrest := ih hshows hconfined
    rw [hcolor] at hrest
    exact hrest

theorem Shows.dispCalls (h : Shows data text) (hconfined : Confined start first unusable data)
    (calls : List DispCall) :
    Shows (Hal9000.dispCalls data calls)
        ((calls.flatMap DispCall.text).foldl (WrappedText.push breaksRow) text) ∧
      Confined start first unusable (Hal9000.dispCalls data calls) := by
  induction calls generalizing data text with
  | nil => exact ⟨h,hconfined⟩
  | cons call rest ih =>
    have hset : Shows (data.dispSetColor call.color) text := by
      obtain ⟨off,hshows,hneeded⟩ := h
      have hwf := hshows.wellFormed
      exact ⟨off,⟨⟨hwf.start,hwf.bytes,hwf.usable,hwf.lines⟩,hshows.column,hshows.scrolled,
        hshows.line,hshows.inside,hshows.past,hshows.cells⟩,hneeded⟩
    have hconfinedSet : Confined start first unusable (data.dispSetColor call.color) :=
      ⟨hconfined.first_eq,hconfined.unusable_eq,hconfined.written,hconfined.kept⟩
    obtain ⟨hshows,hconfined⟩ := hset.printChars hconfinedSet (expandTabs call.buffer)
    rw [← dispPrintString_eq] at hshows hconfined
    rw [List.flatMap_cons,List.foldl_append]
    exact ih hshows hconfined

theorem Shows.cell_eq (h : Shows data text) (line column : Nat)
    (hline : data.indexOfFirstValidLine + line < data.indexOfFirstInvalidLine)
    (hcolumn : column < charsPerLine) :
    data.memory.cell (data.indexOfFirstValidLine + line) column =
      ((text.lastRows (data.indexOfFirstInvalidLine - data.indexOfFirstValidLine))[line]?.getD
        [])[column]?.getD .zero := by
  obtain ⟨off,hshows,hneeded⟩ := h
  have hscrolled := hshows.scrolled
  have hat := hshows.line
  have hinside := hshows.inside
  have husable := hshows.wellFormed.usable
  rw [hshows.cells line column hline hcolumn,WrappedText.lastRows_row]
  have hoff : text.rows.length -
      (data.indexOfFirstInvalidLine - data.indexOfFirstValidLine) = off := by
    unfold WrappedText.rows
    by_cases hcurrent : text.current = []
    · rw [if_pos hcurrent]
      rcases hneeded with hzero | hpast | ⟨_,hne⟩
      · omega
      · omega
      · exact absurd hcurrent hne
    · rw [if_neg hcurrent,List.length_append,List.length_singleton]
      have hlt : data.currentLine ≠ data.indexOfFirstInvalidLine := fun heq =>
        hcurrent (hshows.past heq)
      rcases hneeded with hzero | hpast | ⟨hlast,_⟩
      · omega
      · exact absurd hpast hlt
      · omega
  rw [hoff]

end Show

theorem shows_preinit (memory : ScreenMemory) {first unusable : Nat} (hfirst : first < unusable)
    (hunusable : unusable ≤ linesPerScreen) :
    Shows (dispPreinitScreen memory first unusable) (.empty (by decide)) := by
  have hbytes : bytesPerChar * ((unusable - first) * charsPerLine) / bytesPerLine =
      unusable - first := by
    simp only [bytesPerChar,charsPerLine,bytesPerLine]
    omega
  refine ⟨0,⟨⟨rfl,?_,hfirst,hunusable⟩,rfl,Nat.le_refl _,rfl,Nat.le_of_lt hfirst,
    fun _ => rfl,?_⟩,Or.inl rfl⟩
  · change bytesPerChar * ((unusable - first) * charsPerLine) = (unusable - first) * bytesPerLine
    simp only [bytesPerChar,charsPerLine,bytesPerLine]
    omega
  · intro line column hin hcolumn
    change first + line < unusable at hin
    change (if linesFrom first (bytesPerChar * ((unusable - first) * charsPerLine) / bytesPerLine)
      (first + line) column then ScreenCharacter.zero else _) = _
    rw [hbytes,if_pos (linesFrom_eq_true.mpr ⟨by omega,by omega,hcolumn⟩)]
    simp

theorem confined_preinit {memory : ScreenMemory} {first unusable : Nat}
    (hfirst : first < unusable) (hnew : ∀ line column, memory.written line column = false) :
    Confined memory first unusable (dispPreinitScreen memory first unusable) := by
  have hbytes : bytesPerChar * ((unusable - first) * charsPerLine) / bytesPerLine =
      unusable - first := by
    simp only [bytesPerChar,charsPerLine,bytesPerLine]
    omega
  refine ⟨rfl,rfl,?_,?_⟩
  · intro line column hwritten
    rcases Bool.or_eq_true_iff.mp hwritten with hwritten | hin
    · rw [hnew line column] at hwritten
      cases hwritten
    · change linesFrom first (bytesPerChar * ((unusable - first) * charsPerLine) / bytesPerLine)
        line column = true at hin
      rw [hbytes,linesFrom_eq_true] at hin
      change first ≤ line ∧ line < unusable ∧ _
      exact ⟨hin.1,by omega,hin.2.2⟩
  · intro line column hwritten
    obtain ⟨_,hout⟩ := Bool.or_eq_false_iff.mp hwritten
    change (if linesFrom first _ line column = true then _ else memory.cell line column) = _
    rw [if_neg (by rw [hout]; decide)]

/-- Whatever is printed, the usable lines show the end of the wrapped text, and nothing is written
outside them. -/
theorem screen_shows_last_rows {memory : ScreenMemory} {first unusable : Nat}
    (hfirst : first < unusable) (hunusable : unusable ≤ linesPerScreen)
    (hnew : ∀ line column, memory.written line column = false) (calls : List DispCall) :
    let screen := (dispCalls (dispPreinitScreen memory first unusable) calls).memory
    (∀ line column, first + line < unusable → column < charsPerLine →
      screen.cell (first + line) column =
        (((printedText calls).lastRows (unusable - first))[line]?.getD [])[column]?.getD .zero) ∧
    (∀ line column, screen.written line column = true →
      first ≤ line ∧ line < unusable ∧ column < charsPerLine) ∧
    ∀ line column, line < first ∨ unusable ≤ line →
      screen.cell line column = memory.cell line column := by
  obtain ⟨hshows,hconfined⟩ :=
    (shows_preinit memory hfirst hunusable).dispCalls (confined_preinit hfirst hnew) calls
  have hcells := hshows.cell_eq
  have hwritten := hconfined.written
  rw [hconfined.first_eq,hconfined.unusable_eq] at hwritten
  simp only [hconfined.first_eq,hconfined.unusable_eq] at hcells
  refine ⟨hcells,hwritten,?_⟩
  intro line column hout
  apply hconfined.kept
  rw [Bool.eq_false_iff]
  intro hin
  have hinside := hwritten line column hin
  omega

def blankScreen : ScreenMemory := ⟨fun _ _ => .zero,fun _ _ => false⟩

/-- Two rows, of which the only usable line shows the second. -/
def twoRows : List DispCall := [⟨whiteColor,['a','b','\n']⟩,⟨4,['\t','z']⟩]

theorem screen_shows_last_rows_one :
    let screen := (dispCalls (dispPreinitScreen blankScreen 1 2) twoRows).memory
    screen.cell 1 4 = ⟨4,'z'⟩ ∧ screen.cell 1 5 = .zero ∧ screen.cell 0 0 = .zero := by
  have h := screen_shows_last_rows (by decide : 1 < 2) (by decide)
    (fun _ _ => rfl : ∀ line column, blankScreen.written line column = false) twoRows
  have hz := (h.1 0 4 (by decide) (by decide)).trans
    (by decide +kernel : _ = (⟨4,'z'⟩ : ScreenCharacter))
  have hblank := (h.1 0 5 (by decide) (by decide)).trans
    (by decide +kernel : _ = ScreenCharacter.zero)
  exact ⟨hz,hblank,h.2.2 0 0 (by decide)⟩

end Hal9000
