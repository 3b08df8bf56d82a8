import Hal9000.Framework.TransitionSystem
import Hal9000.Io.Display
import Hal9000.Time.Uptime

/-!
# The screen of an idle system

Each scheduling decision tells `CoreUpdateIdleTime` whether an idle thread was chosen. After a time
without others the usable lines are stored and cleared; the first decision for another thread
restores them. What is printed meanwhile is lost, and what is printed next scrolls the restored
lines up. The title and the line that is edited lie outside of the usable lines and are not stored.
-/

namespace Hal9000

def screenSize : Nat := charsPerLine * linesPerScreen * bytesPerChar
def defaultSecondsToIdleState : Nat := 60
def cyanColor : Nat := 3
def schedulerTimerInterruptTimeUs : Nat := 40 * 1000

/-- Memory for a screen, by line and column. -/
abbrev ScreenBuffer := Nat → Nat → ScreenCharacter

inductive DispStatus
  | bufferTooSmall

namespace DisplayData

variable (data : DisplayData)

def usableLines : Nat := data.totalUsableBytes / bytesPerLine

def dispStoreBuffer (buffer : ScreenBuffer) (size : Nat) : Except DispStatus ScreenBuffer :=
  if size < data.totalUsableBytes then .error .bufferTooSmall
  else .ok fun line column =>
    if line < data.usableLines ∧ column < charsPerLine then
      data.memory.cell (data.startOfUsableScreen + line) column
    else buffer line column

/-- The cursor is put behind the last usable line, whatever its column is. -/
def dispRestoreBuffer (buffer : ScreenBuffer) (size : Nat) : Except DispStatus DisplayData :=
  if size < data.totalUsableBytes then .error .bufferTooSmall
  else .ok { data.setMemory (data.memory.write
      (linesFrom data.startOfUsableScreen data.usableLines)
      fun line column => buffer (line - data.startOfUsableScreen) column) with
    currentLine := data.indexOfFirstInvalidLine }

/-- The loop of `DispPutBufferColor`, from its character `i`. -/
def putCharsAt (line column : Nat) : DisplayData → Nat → List Char → DisplayData
  | data, _, [] => data
  | data, i, character :: rest =>
    if i < charsPerLine - column ∧ character ≠ '\x00' then
      putCharsAt line column (data.dispPutChar character line (column + i)) (i + 1) rest
    else data

def dispPutBufferColor (buffer : List Char) (line column color : Nat) : DisplayData :=
  (putCharsAt line column (data.dispSetColor color) 0 buffer).dispSetColor data.currentColor

/-- `_OsInfoUpdateTime`, with the formatted time; the column is a byte. -/
def osInfoUpdateTime (timeBuffer : List Char) : DisplayData :=
  data.dispPutBufferColor timeBuffer 0 ((charsPerLine + 256 - timeBuffer.length % 256) % 256)
    cyanColor

/-- `_vprintColor`, with the formatted text. -/
def vprintColor (color : Nat) (buffer : List Char) : DisplayData :=
  (dispPrintString (data.dispSetColor color) buffer).dispSetColor data.currentColor

end DisplayData

/-- `CORE_DATA`. -/
structure CoreData where
  microsecondsToIdle : Nat
  readyThreadUs : Nat
  systemIdle : Bool
  displayBuffer : ScreenBuffer
  displayBufferSize : Nat

structure IdleScreen where
  core : CoreData
  display : DisplayData

def coreSetIdlePeriod (core : CoreData) (secondsForIdle : Nat) : CoreData :=
  if secondsForIdle = 0 then core
  else { core with microsecondsToIdle := secInUs * secondsForIdle }

/-- The buffer comes from a zeroed pool allocation that succeeds. -/
def coreInit (systemTimeUs : Nat) : CoreData :=
  { coreSetIdlePeriod ⟨0,0,false,fun _ _ => .zero,0⟩ defaultSecondsToIdleState with
    readyThreadUs := systemTimeUs
    displayBufferSize := screenSize }

/-- `_CoreSystemIdle`. The message is what is logged, nothing if the log level is higher. -/
def coreSystemIdle (s : IdleScreen) (message : List Char) : Option IdleScreen :=
  match s.display.dispStoreBuffer s.core.displayBuffer s.core.displayBufferSize with
  | .error _ => none
  | .ok displayBuffer => some
    ⟨{ s.core with displayBuffer },s.display.dispClearScreen.vprintColor whiteColor message⟩

/-- `_CoreSystemRevertFromIdle`. -/
def coreSystemRevertFromIdle (s : IdleScreen) (message : List Char) : Option IdleScreen :=
  match s.display.dispRestoreBuffer s.core.displayBuffer s.core.displayBufferSize with
  | .error _ => none
  | .ok display => some ⟨s.core,display.vprintColor whiteColor message⟩

/-- The callers hold the lock of the ready list, so the calls do not overlap. -/
def coreUpdateIdleTime (s : IdleScreen) (bspProcessor idleScheduled : Bool) (systemTimeUs : Nat)
    (message : List Char) : Option IdleScreen :=
  if idleScheduled then
    if !bspProcessor then some s
    else if systemTimeUs < s.core.readyThreadUs then do
      -- the clocks of two processors differ by a tick at most
      assert (decide (s.core.readyThreadUs ≤ systemTimeUs + schedulerTimerInterruptTimeUs))
      return s
    else if s.core.microsecondsToIdle ≤ systemTimeUs - s.core.readyThreadUs then
      if s.core.systemIdle then some s
      else coreSystemIdle ⟨{ s.core with systemIdle := true },s.display⟩ message
    else some s
  else if systemTimeUs ≤ s.core.readyThreadUs then some s
  else if s.core.systemIdle then
    coreSystemRevertFromIdle
      ⟨{ s.core with readyThreadUs := systemTimeUs, systemIdle := false },s.display⟩ message
  else some ⟨{ s.core with readyThreadUs := systemTimeUs },s.display⟩

inductive IdleAction
  | coreUpdateIdleTime (bspProcessor idleScheduled : Bool) (systemTimeUs : Nat)
      (message : List Char)
  | coreSetIdlePeriod (secondsForIdle : Nat)
  | vprintColor (color : Nat) (buffer : List Char)
  | osInfoTimeUpdateIsr (timeBuffer : List Char)
  | dispPutBufferColor (buffer : List Char) (line column color : Nat)
  | dispClearLine (line : Nat)
  | dispClearScreen

def idleStep (s : IdleScreen) : IdleAction → Option IdleScreen
  | .coreUpdateIdleTime bspProcessor idleScheduled systemTimeUs message =>
    coreUpdateIdleTime s bspProcessor idleScheduled systemTimeUs message
  | .coreSetIdlePeriod secondsForIdle => some ⟨coreSetIdlePeriod s.core secondsForIdle,s.display⟩
  | .vprintColor color buffer => some ⟨s.core,s.display.vprintColor color buffer⟩
  | .osInfoTimeUpdateIsr timeBuffer => some ⟨s.core,s.display.osInfoUpdateTime timeBuffer⟩
  | .dispPutBufferColor buffer line column color =>
    some ⟨s.core,s.display.dispPutBufferColor buffer line column color⟩
  | .dispClearLine line => some ⟨s.core,s.display.dispClearLine line⟩
  | .dispClearScreen => some ⟨s.core,s.display.dispClearScreen⟩

/-- The line that is written wherever it lies. -/
def IdleAction.line : IdleAction → Option Nat
  | .osInfoTimeUpdateIsr _ => some 0
  | .dispPutBufferColor _ line _ _ | .dispClearLine line => some line
  | .coreUpdateIdleTime _ _ _ _ | .coreSetIdlePeriod _ | .vprintColor _ _ | .dispClearScreen => none

/-- `CoreInit` has run, after whatever was printed before. -/
def idleSystem : TransitionSystem IdleScreen IdleAction where
  init s := ∃ memory first unusable calls systemTimeUs,
    first < unusable ∧ unusable ≤ linesPerScreen ∧ s = ⟨coreInit systemTimeUs,
      dispCalls (dispPreinitScreen memory first unusable) calls⟩
  step := idleStep

/-- The cursor is on the usable lines, or behind the last one. -/
structure DisplayData.CursorInside (data : DisplayData) : Prop extends data.WellFormed where
  column : data.currentColumn < charsPerLine
  first : data.indexOfFirstValidLine ≤ data.currentLine
  last : data.currentLine ≤ data.indexOfFirstInvalidLine

/-- The same usable lines, and nothing changed outside of them. -/
structure DisplayData.SameOutside (data data' : DisplayData) : Prop where
  start : data'.startOfUsableScreen = data.startOfUsableScreen
  bytes : data'.totalUsableBytes = data.totalUsableBytes
  first : data'.indexOfFirstValidLine = data.indexOfFirstValidLine
  unusable : data'.indexOfFirstInvalidLine = data.indexOfFirstInvalidLine
  cell : ∀ line column, ¬(data.indexOfFirstValidLine ≤ line ∧
    line < data.indexOfFirstInvalidLine ∧ column < charsPerLine) →
      data'.memory.cell line column = data.memory.cell line column

/-- The same usable lines, and outside of them nothing changed but in these lines. -/
structure DisplayData.SameBut (lines : List Nat) (data data' : DisplayData) : Prop where
  start : data'.startOfUsableScreen = data.startOfUsableScreen
  bytes : data'.totalUsableBytes = data.totalUsableBytes
  first : data'.indexOfFirstValidLine = data.indexOfFirstValidLine
  unusable : data'.indexOfFirstInvalidLine = data.indexOfFirstInvalidLine
  cell : ∀ line column, line ∉ lines → ¬(data.indexOfFirstValidLine ≤ line ∧
    line < data.indexOfFirstInvalidLine ∧ column < charsPerLine) →
      data'.memory.cell line column = data.memory.cell line column

section Screen

variable {data data' data₁ : DisplayData} {lines lines' : List Nat}

theorem DisplayData.SameOutside.sameBut (h : data.SameOutside data') (lines : List Nat) :
    data.SameBut lines data' :=
  ⟨h.start,h.bytes,h.first,h.unusable,fun line column _ => h.cell line column⟩

theorem DisplayData.SameBut.trans (h : data.SameBut lines data₁) (h' : data₁.SameBut lines' data') :
    data.SameBut (lines ++ lines') data' := by
  refine ⟨h'.start.trans h.start,h'.bytes.trans h.bytes,h'.first.trans h.first,
    h'.unusable.trans h.unusable,?_⟩
  intro line column hline hout
  rw [List.mem_append,not_or] at hline
  rw [← h.cell line column hline.1 hout]
  apply h'.cell line column hline.2
  rw [h.first,h.unusable]
  exact hout

theorem DisplayData.CursorInside.writeLine (h : data.CursorInside)
    (line : Nat) (region : Nat → Nat → Bool) (value : Nat → Nat → ScreenCharacter)
    (hregion : ∀ line' column, region line' column = true → line' = line) :
    data.SameBut [line] (data.setMemory (data.memory.write region value)) ∧
      (data.setMemory (data.memory.write region value)).CursorInside := by
  refine ⟨⟨rfl,rfl,rfl,rfl,?_⟩,⟨⟨h.start,h.bytes,h.usable,h.lines⟩,h.column,h.first,h.last⟩⟩
  intro line' column hline _
  have hfalse : region line' column = false := by
    rw [Bool.eq_false_iff]
    exact fun hin => hline (List.mem_singleton.mpr (hregion line' column hin))
  simp [DisplayData.setMemory,ScreenMemory.write,hfalse]

theorem DisplayData.CursorInside.putCharsAt (h : data.CursorInside) (line column i : Nat)
    (buffer : List Char) :
    data.SameBut [line] (DisplayData.putCharsAt line column data i buffer) ∧
      (DisplayData.putCharsAt line column data i buffer).CursorInside := by
  induction buffer generalizing data i with
  | nil => exact ⟨(DisplayData.SameOutside.sameBut ⟨rfl,rfl,rfl,rfl,fun _ _ _ => rfl⟩ _),h⟩
  | cons character rest ih =>
    unfold DisplayData.putCharsAt
    split_ifs
    · obtain ⟨hput,hinside⟩ := h.writeLine line
        (fun line' column' => line' == line && column' == column + i)
        (fun _ _ => ⟨data.currentColor,character⟩)
        (fun line' column' hin => by simpa using (Bool.and_eq_true_iff.mp hin).1)
      obtain ⟨hrest,hinside'⟩ := ih hinside (i + 1)
      refine ⟨⟨hrest.start.trans hput.start,hrest.bytes.trans hput.bytes,
        hrest.first.trans hput.first,hrest.unusable.trans hput.unusable,?_⟩,hinside'⟩
      intro line' column' hline hout
      rw [← hput.cell line' column' hline hout]
      apply hrest.cell line' column' hline
      rw [hput.first,hput.unusable]
      exact hout
    · exact ⟨(DisplayData.SameOutside.sameBut ⟨rfl,rfl,rfl,rfl,fun _ _ _ => rfl⟩ _),h⟩

theorem DisplayData.CursorInside.dispPutBufferColor (h : data.CursorInside) (buffer : List Char)
    (line column color : Nat) :
    data.SameBut [line] (data.dispPutBufferColor buffer line column color) ∧
      (data.dispPutBufferColor buffer line column color).CursorInside := by
  have hset : (data.dispSetColor color).CursorInside :=
    ⟨⟨h.start,h.bytes,h.usable,h.lines⟩,h.column,h.first,h.last⟩
  obtain ⟨hsame,hinside⟩ := hset.putCharsAt line column 0 buffer
  exact ⟨⟨hsame.start,hsame.bytes,hsame.first,hsame.unusable,hsame.cell⟩,
    ⟨⟨hinside.start,hinside.bytes,hinside.usable,hinside.lines⟩,hinside.column,hinside.first,
      hinside.last⟩⟩

theorem DisplayData.SameOutside.refl (data : DisplayData) : data.SameOutside data :=
  ⟨rfl,rfl,rfl,rfl,fun _ _ _ => rfl⟩

theorem DisplayData.SameOutside.trans (h : data.SameOutside data₁) (h' : data₁.SameOutside data') :
    data.SameOutside data' := by
  refine ⟨h'.start.trans h.start,h'.bytes.trans h.bytes,h'.first.trans h.first,
    h'.unusable.trans h.unusable,?_⟩
  intro line column hout
  rw [← h.cell line column hout]
  apply h'.cell
  rw [h.first,h.unusable]
  exact hout

theorem DisplayData.SameOutside.wellFormed (h : data.SameOutside data') (hwf : data.WellFormed) :
    data'.WellFormed where
  start := by rw [h.start,h.first,hwf.start]
  bytes := by rw [h.bytes,h.unusable,h.first,hwf.bytes]
  usable := by rw [h.first,h.unusable]; exact hwf.usable
  lines := by rw [h.unusable]; exact hwf.lines

theorem DisplayData.WellFormed.usableLines (h : data.WellFormed) :
    data.usableLines = data.indexOfFirstInvalidLine - data.indexOfFirstValidLine := by
  rw [DisplayData.usableLines,h.bytes,Nat.mul_div_cancel _ (by decide)]

theorem sameOutside_write {region : Nat → Nat → Bool} {value : Nat → Nat → ScreenCharacter}
    (hregion : ∀ line column, region line column = true → data.indexOfFirstValidLine ≤ line ∧
      line < data.indexOfFirstInvalidLine ∧ column < charsPerLine) :
    data.SameOutside (data.setMemory (data.memory.write region value)) := by
  refine ⟨rfl,rfl,rfl,rfl,?_⟩
  intro line column hout
  have hfalse : region line column = false := by
    rw [Bool.eq_false_iff]
    exact fun hin => hout (hregion line column hin)
  simp [DisplayData.setMemory,ScreenMemory.write,hfalse]

theorem sameOutside_cursor (h : data.SameOutside data') (line column : Nat) :
    data.SameOutside { data' with currentLine := line, currentColumn := column } :=
  ⟨h.start,h.bytes,h.first,h.unusable,h.cell⟩

theorem DisplayData.CursorInside.clearScreen (h : data.CursorInside) :
    data.SameOutside data.dispClearScreen ∧ data.dispClearScreen.CursorInside := by
  have hsame : data.SameOutside data.dispClearScreen := by
    refine sameOutside_cursor (sameOutside_write ?_) data.indexOfFirstValidLine
      data.currentColumn
    intro line column hin
    rw [linesFrom_eq_true,h.start] at hin
    have hlines := h.toWellFormed.usableLines
    rw [DisplayData.usableLines] at hlines
    omega
  exact ⟨hsame,hsame.wellFormed h.toWellFormed,h.column,Nat.le_refl _,Nat.le_of_lt h.usable⟩

theorem DisplayData.CursorInside.scrollScreen (h : data.CursorInside)
    (hline : data.currentLine = data.indexOfFirstInvalidLine) :
    data.SameOutside data.dispScrollScreen ∧ data.dispScrollScreen.CursorInside ∧
      data.dispScrollScreen.currentLine < data.indexOfFirstInvalidLine := by
  have husable := h.usable
  have hlines : data.indexOfFirstInvalidLine ≤ 25 := h.lines
  have hup : data.lineUp.currentLine + 1 = data.indexOfFirstInvalidLine := by
    change (data.currentLine + 255) % 256 + 1 = _
    omega
  have hmoved : data.SameOutside data.moveLinesUp := by
    apply sameOutside_write
    intro line column hin
    rw [moved_lines h.toWellFormed,h.start,linesFrom_eq_true] at hin
    omega
  have hsame : data.SameOutside data.dispScrollScreen := by
    apply (sameOutside_cursor hmoved data.lineUp.currentLine data.currentColumn).trans
    apply sameOutside_write
    intro line column hin
    rw [linesFrom_eq_true] at hin
    change data.indexOfFirstValidLine ≤ line ∧ line < data.indexOfFirstInvalidLine ∧ _
    omega
  have hcursor : data.dispScrollScreen.currentLine = data.lineUp.currentLine := rfl
  refine ⟨hsame,⟨hsame.wellFormed h.toWellFormed,h.column,?_,?_⟩,by omega⟩
  · rw [hsame.first]
    omega
  · rw [hsame.unusable]
    omega

theorem DisplayData.CursorInside.scrollIfNeeded (h : data.CursorInside) :
    data.SameOutside data.scrollIfNeeded ∧ data.scrollIfNeeded.CursorInside ∧
      data.scrollIfNeeded.currentLine < data.indexOfFirstInvalidLine := by
  unfold DisplayData.scrollIfNeeded
  by_cases hline : data.indexOfFirstInvalidLine = data.currentLine
  · rw [if_pos hline]
    exact h.scrollScreen hline.symm
  · rw [if_neg hline]
    have hlast := h.last
    exact ⟨.refl data,h,by omega⟩

theorem DisplayData.CursorInside.newline (h : data.CursorInside)
    (hlt : data.currentLine < data.indexOfFirstInvalidLine) : data.newline.CursorInside := by
  have hlines : data.indexOfFirstInvalidLine ≤ 25 := h.lines
  have hfirst := h.first
  have hnext : data.newline.currentLine = data.currentLine + 1 := by
    change (data.currentLine + 1) % 256 = _
    omega
  have hcolumn : data.newline.currentColumn < charsPerLine := by
    change 0 < charsPerLine
    decide
  refine ⟨⟨h.start,h.bytes,h.usable,h.lines⟩,hcolumn,?_,?_⟩
  · change data.indexOfFirstValidLine ≤ _
    omega
  · change _ ≤ data.indexOfFirstInvalidLine
    omega

theorem DisplayData.CursorInside.placeChar (h : data.CursorInside) (character : Char)
    (hlt : data.currentLine < data.indexOfFirstInvalidLine) :
    data.SameOutside (data.placeChar character) ∧ (data.placeChar character).CursorInside := by
  have hput : data.SameOutside
      (data.dispPutChar character data.currentLine data.currentColumn) := by
    apply sameOutside_write
    intro line column hin
    rw [Bool.and_eq_true,beq_iff_eq,beq_iff_eq] at hin
    rw [hin.1,hin.2]
    exact ⟨h.first,hlt,h.column⟩
  have hcolumn : data.currentColumn < 80 := h.column
  have hnext : (data.dispPutChar character data.currentLine
      data.currentColumn).nextColumn.currentColumn = data.currentColumn + 1 := by
    change (data.currentColumn + 1) % 256 = _
    omega
  have hwf := hput.wellFormed h.toWellFormed
  simp only [DisplayData.placeChar,hnext]
  by_cases hfull : charsPerLine = data.currentColumn + 1
  · rw [if_pos hfull]
    have hput' : (data.dispPutChar character data.currentLine data.currentColumn).CursorInside :=
      ⟨hwf,h.column,h.first,h.last⟩
    exact ⟨sameOutside_cursor hput _ _,hput'.newline hlt⟩
  · rw [if_neg hfull]
    refine ⟨sameOutside_cursor hput data.currentLine _,
      ⟨⟨hwf.start,hwf.bytes,hwf.usable,hwf.lines⟩,?_,h.first,h.last⟩⟩
    rw [hnext]
    simp only [charsPerLine] at hfull ⊢
    omega

theorem DisplayData.CursorInside.printChar (h : data.CursorInside) (character : Char) :
    data.SameOutside (Hal9000.printChar data character) ∧
      (Hal9000.printChar data character).CursorInside := by
  obtain ⟨hsame,hinside,hlt⟩ := h.scrollIfNeeded
  rw [← hsame.unusable] at hlt
  unfold Hal9000.printChar
  by_cases hnewline : character = '\n'
  · rw [if_pos hnewline]
    exact ⟨sameOutside_cursor hsame _ _,hinside.newline hlt⟩
  · rw [if_neg hnewline]
    obtain ⟨hplaced,hinside'⟩ := hinside.placeChar character hlt
    exact ⟨hsame.trans hplaced,hinside'⟩

theorem DisplayData.CursorInside.printChars (h : data.CursorInside) (characters : List Char) :
    data.SameOutside (characters.foldl Hal9000.printChar data) ∧
      (characters.foldl Hal9000.printChar data).CursorInside := by
  induction characters generalizing data with
  | nil => exact ⟨.refl data,h⟩
  | cons character rest ih =>
    obtain ⟨hsame,hinside⟩ := h.printChar character
    obtain ⟨hsame',hinside'⟩ := ih hinside
    exact ⟨hsame.trans hsame',hinside'⟩

theorem DisplayData.CursorInside.vprintColor (h : data.CursorInside) (color : Nat)
    (buffer : List Char) : data.SameOutside (data.vprintColor color buffer) ∧
      (data.vprintColor color buffer).CursorInside := by
  have hset : (data.dispSetColor color).CursorInside :=
    ⟨⟨h.start,h.bytes,h.usable,h.lines⟩,h.column,h.first,h.last⟩
  obtain ⟨hsame,hinside⟩ := hset.printChars (expandTabs buffer)
  rw [← dispPrintString_eq] at hsame hinside
  exact ⟨⟨hsame.start,hsame.bytes,hsame.first,hsame.unusable,hsame.cell⟩,
    ⟨⟨hinside.start,hinside.bytes,hinside.usable,hinside.lines⟩,hinside.column,hinside.first,
      hinside.last⟩⟩

end Screen

/-- What the usable lines of the display show, and what the buffer holds for them. -/
def StoredIn (data : DisplayData) (buffer : ScreenBuffer) : Prop :=
  ∀ line column, data.indexOfFirstValidLine + line < data.indexOfFirstInvalidLine →
    column < charsPerLine →
      buffer line column = data.memory.cell (data.indexOfFirstValidLine + line) column

/-- What holds between two steps. -/
structure IdleScreenInv (s : IdleScreen) : Prop where
  cursor : s.display.CursorInside
  size : s.core.displayBufferSize = screenSize

section Idle

variable {s s' : IdleScreen}

theorem IdleScreenInv.fits (h : IdleScreenInv s) :
    s.display.totalUsableBytes ≤ s.core.displayBufferSize := by
  have hlines : s.display.indexOfFirstInvalidLine ≤ 25 := h.cursor.lines
  have hsize : s.core.displayBufferSize = 4000 := h.size
  rw [h.cursor.bytes,hsize]
  simp only [bytesPerLine]
  omega

theorem DisplayData.WellFormed.dispStoreBuffer {data : DisplayData} (h : data.WellFormed)
    {size : Nat} (hsize : data.totalUsableBytes ≤ size) (buffer : ScreenBuffer) :
    ∃ stored, data.dispStoreBuffer buffer size = .ok stored ∧ StoredIn data stored := by
  refine ⟨_,if_neg (Nat.not_lt.mpr hsize),?_⟩
  intro line column hline hcolumn
  have hin : line < data.usableLines := by
    rw [h.usableLines]
    omega
  change (if line < data.usableLines ∧ column < charsPerLine then _ else _) = _
  rw [if_pos ⟨hin,hcolumn⟩,h.start]

theorem DisplayData.CursorInside.dispRestoreBuffer {data : DisplayData} (h : data.CursorInside)
    {size : Nat} (hsize : data.totalUsableBytes ≤ size) (buffer : ScreenBuffer) :
    ∃ restored, data.dispRestoreBuffer buffer size = .ok restored ∧ restored.CursorInside ∧
      data.SameOutside restored ∧ StoredIn restored buffer ∧
      restored.currentLine = data.indexOfFirstInvalidLine ∧
      restored.currentColumn = data.currentColumn := by
  have hregion : ∀ line column, linesFrom data.startOfUsableScreen data.usableLines line column =
      true → data.indexOfFirstValidLine ≤ line ∧ line < data.indexOfFirstInvalidLine ∧
        column < charsPerLine := by
    intro line column hin
    rw [linesFrom_eq_true,h.start,h.toWellFormed.usableLines] at hin
    omega
  have hwritten : data.SameOutside (data.setMemory (data.memory.write
      (linesFrom data.startOfUsableScreen data.usableLines)
      fun line column => buffer (line - data.startOfUsableScreen) column)) :=
    sameOutside_write hregion
  have hsame := sameOutside_cursor hwritten data.indexOfFirstInvalidLine data.currentColumn
  refine ⟨_,if_neg (Nat.not_lt.mpr hsize),⟨hsame.wellFormed h.toWellFormed,h.column,
    Nat.le_of_lt h.usable,Nat.le_refl _⟩,hsame,?_,rfl,rfl⟩
  intro line column hline hcolumn
  change data.indexOfFirstValidLine + line < data.indexOfFirstInvalidLine at hline
  have hin : linesFrom data.startOfUsableScreen data.usableLines
      (data.indexOfFirstValidLine + line) column = true := by
    rw [linesFrom_eq_true,h.start,h.toWellFormed.usableLines]
    omega
  change _ = if linesFrom data.startOfUsableScreen data.usableLines
    (data.indexOfFirstValidLine + line) column = true then
      buffer (data.indexOfFirstValidLine + line - data.startOfUsableScreen) column else _
  rw [if_pos hin,h.start,Nat.add_sub_cancel_left]

/-- What a step does with the stored screen. -/
inductive IdleEffect (s : IdleScreen) : IdleAction → IdleScreen → Prop
  | keep {a : IdleAction} (s' : IdleScreen) (hidle : s'.core.systemIdle = s.core.systemIdle)
      (hbuffer : s'.core.displayBuffer = s.core.displayBuffer)
      (hready : s.core.systemIdle = true → s'.core.readyThreadUs = s.core.readyThreadUs) :
      IdleEffect s a s'
  | store (s' : IdleScreen) (systemTimeUs : Nat) (message : List Char)
      (hidle : s.core.systemIdle = false) (hidle' : s'.core.systemIdle = true)
      (hready : s'.core.readyThreadUs = s.core.readyThreadUs)
      (htime : s.core.readyThreadUs + s.core.microsecondsToIdle ≤ systemTimeUs)
      (hstored : StoredIn s.display s'.core.displayBuffer)
      (hdisplay : s'.display = s.display.dispClearScreen.vprintColor whiteColor message) :
      IdleEffect s (.coreUpdateIdleTime true true systemTimeUs message) s'
  | restore (s' : IdleScreen) (bspProcessor : Bool) (systemTimeUs : Nat) (message : List Char)
      (restored : DisplayData) (hidle : s.core.systemIdle = true)
      (hidle' : s'.core.systemIdle = false) (htime : s.core.readyThreadUs < systemTimeUs)
      (hsame : s.display.SameOutside restored) (hstored : StoredIn restored s.core.displayBuffer)
      (hline : restored.currentLine = restored.indexOfFirstInvalidLine)
      (hcolumn : restored.currentColumn = s.display.currentColumn)
      (hdisplay : s'.display = restored.vprintColor whiteColor message) :
      IdleEffect s (.coreUpdateIdleTime bspProcessor false systemTimeUs message) s'

theorem coreUpdateIdleTime_effect (hinv : IdleScreenInv s) {bspProcessor idleScheduled : Bool}
    {systemTimeUs : Nat} {message : List Char}
    (h : coreUpdateIdleTime s bspProcessor idleScheduled systemTimeUs message = some s') :
    IdleEffect s (.coreUpdateIdleTime bspProcessor idleScheduled systemTimeUs message) s' ∧
      IdleScreenInv s' ∧ s.display.SameOutside s'.display := by
  have hkeep : s = s' → IdleEffect s
      (.coreUpdateIdleTime bspProcessor idleScheduled systemTimeUs message) s' ∧
      IdleScreenInv s' ∧ s.display.SameOutside s'.display := by
    rintro rfl
    exact ⟨.keep s rfl rfl fun _ => rfl,hinv,.refl _⟩
  unfold coreUpdateIdleTime at h
  cases idleScheduled with
  | true =>
    cases bspProcessor with
    | false => exact hkeep (Option.some.inj h)
    | true =>
      simp only [Bool.not_true,Bool.false_eq_true,if_true,if_false] at h
      by_cases hpast : systemTimeUs < s.core.readyThreadUs
      · rw [if_pos hpast] at h
        obtain ⟨_,_,hs⟩ := Option.bind_eq_some_iff.mp h
        exact hkeep (Option.some.inj hs)
      · rw [if_neg hpast] at h
        by_cases htime : s.core.microsecondsToIdle ≤ systemTimeUs - s.core.readyThreadUs
        · rw [if_pos htime] at h
          by_cases hidle : s.core.systemIdle = true
          · rw [if_pos hidle] at h
            exact hkeep (Option.some.inj h)
          · obtain ⟨stored,hstore,hstored⟩ :=
              hinv.cursor.toWellFormed.dispStoreBuffer hinv.fits s.core.displayBuffer
            rw [if_neg hidle] at h
            simp only [coreSystemIdle,hstore] at h
            obtain rfl := Option.some.inj h
            obtain ⟨hclear,hinside⟩ := hinv.cursor.clearScreen
            obtain ⟨hprinted,hinside'⟩ := hinside.vprintColor whiteColor message
            exact ⟨.store _ _ _ (by simpa using hidle) rfl rfl (by omega) hstored rfl,
              ⟨hinside',hinv.size⟩,hclear.trans hprinted⟩
        · rw [if_neg htime] at h
          exact hkeep (Option.some.inj h)
  | false =>
    simp only [Bool.false_eq_true,if_false] at h
    by_cases htime : systemTimeUs ≤ s.core.readyThreadUs
    · rw [if_pos htime] at h
      exact hkeep (Option.some.inj h)
    · rw [if_neg htime] at h
      by_cases hidle : s.core.systemIdle = true
      · obtain ⟨restored,hrestore,hinside,hsame,hstored,hline,hcolumn⟩ :=
          hinv.cursor.dispRestoreBuffer hinv.fits s.core.displayBuffer
        rw [if_pos hidle] at h
        simp only [coreSystemRevertFromIdle,hrestore] at h
        obtain rfl := Option.some.inj h
        obtain ⟨hprinted,hinside'⟩ := hinside.vprintColor whiteColor message
        exact ⟨.restore _ _ _ _ restored hidle rfl (by omega) hsame hstored
          (hline.trans hsame.unusable.symm) hcolumn rfl,⟨hinside',hinv.size⟩,hsame.trans hprinted⟩
      · rw [if_neg hidle] at h
        obtain rfl := Option.some.inj h
        exact ⟨.keep _ rfl rfl fun hidle' => absurd hidle' hidle,⟨hinv.cursor,hinv.size⟩,.refl _⟩

theorem idleStep_effect (hinv : IdleScreenInv s) {a : IdleAction} (h : idleStep s a = some s') :
    IdleEffect s a s' ∧ IdleScreenInv s' ∧ s.display.SameBut a.line.toList s'.display := by
  cases a with
  | coreUpdateIdleTime bspProcessor idleScheduled systemTimeUs message =>
    obtain ⟨heffect,hinv',hsame⟩ := coreUpdateIdleTime_effect hinv h
    exact ⟨heffect,hinv',hsame.sameBut _⟩
  | coreSetIdlePeriod secondsForIdle =>
    obtain rfl := Option.some.inj h
    have hcore : (coreSetIdlePeriod s.core secondsForIdle).systemIdle = s.core.systemIdle ∧
        (coreSetIdlePeriod s.core secondsForIdle).displayBuffer = s.core.displayBuffer ∧
        (coreSetIdlePeriod s.core secondsForIdle).readyThreadUs = s.core.readyThreadUs ∧
        (coreSetIdlePeriod s.core secondsForIdle).displayBufferSize =
          s.core.displayBufferSize := by
      unfold coreSetIdlePeriod
      split <;> exact ⟨rfl,rfl,rfl,rfl⟩
    exact ⟨.keep _ hcore.1 hcore.2.1 fun _ => hcore.2.2.1,
      ⟨hinv.cursor,hcore.2.2.2.trans hinv.size⟩,(DisplayData.SameOutside.refl _).sameBut _⟩
  | vprintColor color buffer =>
    obtain rfl := Option.some.inj h
    obtain ⟨hsame,hinside⟩ := hinv.cursor.vprintColor color buffer
    exact ⟨.keep _ rfl rfl fun _ => rfl,⟨hinside,hinv.size⟩,hsame.sameBut _⟩
  | osInfoTimeUpdateIsr timeBuffer =>
    obtain rfl := Option.some.inj h
    obtain ⟨hsame,hinside⟩ := hinv.cursor.dispPutBufferColor timeBuffer 0
      ((charsPerLine + 256 - timeBuffer.length % 256) % 256) cyanColor
    exact ⟨.keep _ rfl rfl fun _ => rfl,⟨hinside,hinv.size⟩,hsame⟩
  | dispPutBufferColor buffer line column color =>
    obtain rfl := Option.some.inj h
    obtain ⟨hsame,hinside⟩ := hinv.cursor.dispPutBufferColor buffer line column color
    exact ⟨.keep _ rfl rfl fun _ => rfl,⟨hinside,hinv.size⟩,hsame⟩
  | dispClearLine line =>
    obtain rfl := Option.some.inj h
    obtain ⟨hsame,hinside⟩ := hinv.cursor.writeLine line (linesFrom line 1) (fun _ _ => .zero)
      (fun line' column hin => by rw [linesFrom_eq_true] at hin; omega)
    exact ⟨.keep _ rfl rfl fun _ => rfl,⟨hinside,hinv.size⟩,hsame⟩
  | dispClearScreen =>
    obtain rfl := Option.some.inj h
    obtain ⟨hsame,hinside⟩ := hinv.cursor.clearScreen
    exact ⟨.keep _ rfl rfl fun _ => rfl,⟨hinside,hinv.size⟩,hsame.sameBut _⟩

theorem cursorInside_dispCalls {data : DisplayData} (h : data.CursorInside)
    (calls : List DispCall) : (dispCalls data calls).CursorInside := by
  induction calls generalizing data with
  | nil => exact h
  | cons call rest ih =>
    have hset : (data.dispSetColor call.color).CursorInside :=
      ⟨⟨h.start,h.bytes,h.usable,h.lines⟩,h.column,h.first,h.last⟩
    have hprinted := (hset.printChars (expandTabs call.buffer)).2
    rw [← dispPrintString_eq] at hprinted
    exact ih hprinted

theorem IdleScreenInv.init (h : idleSystem.init s) : IdleScreenInv s := by
  obtain ⟨memory,first,unusable,calls,systemTimeUs,hfirst,hunusable,rfl⟩ := h
  obtain ⟨off,hshows,_⟩ := shows_preinit memory hfirst hunusable
  have hcursor : (dispPreinitScreen memory first unusable).CursorInside := by
    refine ⟨hshows.wellFormed,?_,?_,hshows.inside⟩
    · rw [hshows.column]
      exact WrappedText.current_lt _
    · rw [hshows.line]
      exact Nat.le_add_right _ _
  exact ⟨cursorInside_dispCalls hcursor calls,rfl⟩

theorem idleInv_of_reachable (h : idleSystem.Reachable s) : IdleScreenInv s := by
  apply h.invariant
  · exact fun s hinit => IdleScreenInv.init hinit
  · exact fun s a s' _ hinv _ hstep => (idleStep_effect hinv hstep).2.1

/-- While the system stays idle, the stored screen stays, and outside of the usable lines nothing is
written but the lines of the actions. -/
theorem idle_run_keeps (hinv : IdleScreenInv s) {actions : List IdleAction}
    (hrun : idleSystem.run s actions = some s')
    (hidle : idleSystem.RunSatisfies (fun s _ => s.core.systemIdle = true) s actions)
    (hidle' : s'.core.systemIdle = true) :
    IdleScreenInv s' ∧ s'.core.displayBuffer = s.core.displayBuffer ∧
      s'.core.readyThreadUs = s.core.readyThreadUs ∧
      s.display.SameBut (actions.flatMap fun a => a.line.toList) s'.display := by
  induction actions generalizing s with
  | nil =>
    obtain rfl := Option.some.inj hrun
    exact ⟨hinv,rfl,rfl,(DisplayData.SameOutside.refl _).sameBut _⟩
  | cons a rest ih =>
    obtain ⟨s₁,hstep,hrest⟩ := Option.bind_eq_some_iff.mp hrun
    obtain ⟨heffect,hinv₁,hsame⟩ := idleStep_effect hinv hstep
    have hidle₁ : s₁.core.systemIdle = true := by
      cases rest with
      | nil =>
        obtain rfl := Option.some.inj hrest
        exact hidle'
      | cons a' rest => exact (hidle.2 s₁ hstep).1
    obtain ⟨hinv',hbuffer,hready,hsame'⟩ := ih hinv₁ hrest (hidle.2 s₁ hstep)
    cases heffect with
    | keep _ _ hbuffer₁ hready₁ =>
      exact ⟨hinv',hbuffer.trans hbuffer₁,hready.trans (hready₁ hidle.1),hsame.trans hsame'⟩
    | store _ _ _ hnot =>
      rw [hidle.1] at hnot
      cases hnot
    | restore _ _ _ _ _ _ hnot =>
      rw [hidle₁] at hnot
      cases hnot

end Idle

/-- Two usable lines. -/
def bootScreen : IdleScreen :=
  ⟨coreInit 0,dispCalls (dispPreinitScreen blankScreen 1 3) [⟨whiteColor,['a','b','\n','c']⟩]⟩

def idleMinute : IdleAction := .coreUpdateIdleTime true true (60 * secInUs) ['i','d','l','e','\n']

def printedMeanwhile : List IdleAction :=
  [.vprintColor 4 ['z','\n','z'],.osInfoTimeUpdateIsr ['1','2',':','0','0']]

def threadFound : IdleAction := .coreUpdateIdleTime false false (61 * secInUs) ['u','p']

end Hal9000
