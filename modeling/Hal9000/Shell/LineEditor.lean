import Hal9000.Io.Display
import Hal9000.Io.Keyboard

/-!
# The line of the shell

`gets_s` edits one line on the screen: a buffer, the index at which the next character is inserted
and the column of the cursor, with a ring of the lines that were entered before. A full line is
recognised by the index, and the index is what the caller gets as the length of the line.
-/

namespace Hal9000

/-- The size of `CMD_SHELL`, its terminator included. -/
def cmdShellSize : Nat := 3
def cmdHistoryMaxSize : Nat := 16

/-- The characters before the terminator. -/
def cString (bytes : List Nat) : List Nat := bytes.takeWhile (· ≠ 0)

/-- The string functions of the common library; no result where they leave their arguments. -/
structure StringFunctions where
  invalidStringSize : Nat
  strncpy : List Nat → List Nat → Nat → Option (List Nat)
  strtrim : List Nat → Option (List Nat)

/-- `strncpy` copies at most `count` characters and terminates what it has copied; `strtrim` leaves
a part of the string in its place. The invalid size is negative as an `int`. -/
structure StringFunctions.Documented (lib : StringFunctions) : Prop where
  invalid : 2 ^ 31 ≤ lib.invalidStringSize ∧ lib.invalidStringSize ≤ maxDword
  copies : ∀ destination source count, count < destination.length → 0 ∈ source →
    ∃ copied, lib.strncpy destination source count = some copied ∧
      copied.length = destination.length ∧
      (∃ n ≤ count, cString copied = (cString source).take n) ∧
      copied.drop (count + 1) = destination.drop (count + 1)
  trims : ∀ bytes, 0 ∈ bytes → ∃ trimmed, lib.strtrim bytes = some trimmed ∧
    trimmed.length = bytes.length ∧ cString trimmed <:+: cString bytes

/-- `strlen_s`. -/
def strlenS (lib : StringFunctions) (bytes : List Nat) (bound : Nat) : Nat :=
  if 0 ∈ bytes.take bound then (cString bytes).length else lib.invalidStringSize

/-- A `DWORD` as an `int`. -/
def asInt (n : Nat) : Int := if n < 2 ^ 31 then n else n - 2 ^ 32

/-- The digits with the shift key, from `0` on. -/
def shiftedDigits : List Keycode := charKeys [')','!','@','!','#','%','^','&','*','(']

def shiftedSigns : List (Keycode × Keycode) :=
  (charKeys [',','.','/',';','\'','[',']','-','+','\\']).zip
    (charKeys ['<','>','?',':','\"','{','}','_','=','|']) ++ [(keyGrave,'~'.toNat)]

/-- `KeyboardKeyToAscii`. -/
def keyboardKeyToAscii (shift capsLock : Bool) (key : Keycode) : Nat :=
  if key = keyUnknown ∨ 128 ≤ key then 0
  else
    let result := if (shift ^^ capsLock) ∧ 'a'.toNat ≤ key ∧ key ≤ 'z'.toNat then key - 32 else key
    if shift then
      if '0'.toNat ≤ result ∧ result ≤ '9'.toNat then
        shiftedDigits.getD (result - '0'.toNat) result
      else (shiftedSigns.lookup result).getD result
    else result

/-- The lines that were entered, `m_CmdHistory` and its two counters. -/
structure CmdHistory where
  lines : List (List Nat)
  firstIndex : Nat
  size : Nat
  deriving DecidableEq

namespace CmdHistory

def start : CmdHistory where
  lines := List.replicate cmdHistoryMaxSize (List.replicate charsPerLine 0)
  firstIndex := 0
  size := 0

def lastIndex (history : CmdHistory) : Nat :=
  (history.firstIndex + history.size - 1) % cmdHistoryMaxSize

/-- Makes room for one more line: the first one is given up when there are enough. -/
def advance (history : CmdHistory) : CmdHistory :=
  if history.size = cmdHistoryMaxSize then
    { history with firstIndex := (history.firstIndex + 1) % cmdHistoryMaxSize }
  else { history with size := history.size + 1 }

end CmdHistory

/-- The variables of `gets_s`, with the buffer and the history that it writes. -/
structure LineState where
  buffer : List Nat
  i : Nat
  /-- The column of the cursor, a byte. -/
  column : Nat
  cmdHistoryIndex : Nat
  history : CmdHistory
  deriving DecidableEq

/-- A key that was read, and the flags of the keyboard when it is translated. -/
structure KeyInput where
  key : Keycode
  shift : Bool
  capsLock : Bool
  deriving DecidableEq

/-- A write behind the end of the buffer has no result. -/
def storeByte (buffer : List Nat) (index byte : Nat) : Option (List Nat) :=
  if index < buffer.length then some (buffer.set index byte) else none

/-- The loop of `KEY_BACKSPACE`; the length of the string is taken again before each round. -/
def shiftLeft (lib : StringFunctions) (maxBufferSize : Nat) :
    Nat → Nat → List Nat → Option (List Nat)
  | 0,_,_ => none
  | fuel + 1,j,buffer =>
    if j ≤ asInt (strlenS lib buffer (maxBufferSize - 1)) then do
      let byte ← buffer[j]?
      let buffer' ← storeByte buffer (j - 1) byte
      shiftLeft lib maxBufferSize fuel (j + 1) buffer'
    else some buffer

/-- The loop in front of an insertion at `i`, with the rounds that are left; `j` goes down to `i`. -/
def shiftRight (i : Nat) : Nat → List Nat → Option (List Nat)
  | 0,buffer => some buffer
  | rounds + 1,buffer => do
    let byte ← buffer[i + rounds]?
    let buffer' ← storeByte buffer (i + rounds + 1) byte
    shiftRight i rounds buffer'

namespace LineState

def start (history : CmdHistory) (bufferSize : Nat) : LineState where
  buffer := List.replicate bufferSize 0
  i := 0
  column := cmdShellSize
  cmdHistoryIndex := maxDword
  history := history

/-- `KEY_RETURN`. -/
def enterLine (lib : StringFunctions) (maxBufferSize : Nat) (s : LineState) : Option LineState :=
  if strlenS lib s.buffer maxBufferSize = 0 then some s
  else do
    let buffer ← lib.strtrim s.buffer
    let line ← s.history.advance.lines[s.history.advance.lastIndex]?
    let line' ← lib.strncpy line buffer (maxBufferSize - 1)
    let lines := s.history.advance.lines.set s.history.advance.lastIndex line'
    some { s with buffer := buffer, history := { s.history.advance with lines := lines } }

/-- `KEY_BACKSPACE`. -/
def deleteLeft (lib : StringFunctions) (maxBufferSize : Nat) (s : LineState) : Option LineState :=
  if s.i = 0 then some s
  else do
    let buffer ← shiftLeft lib maxBufferSize (maxBufferSize + 1) s.i s.buffer
    some { s with buffer := buffer, column := (s.column + 255) % 256, i := s.i - 1 }

/-- The index and the cursor are set to the end of the string. -/
def moveToEnd (lib : StringFunctions) (maxBufferSize : Nat) (s : LineState) : LineState :=
  let length := strlenS lib s.buffer maxBufferSize
  { s with i := length, column := (cmdShellSize + length % 256) % 256 }

/-- A line of the history takes the place of the one that is edited. -/
def showLine (lib : StringFunctions) (maxBufferSize : Nat) (s : LineState) (index : Nat) :
    Option LineState := do
  let line ← s.history.lines[index]?
  let buffer ← lib.strncpy s.buffer line (maxBufferSize - 1)
  some (moveToEnd lib maxBufferSize { s with buffer := buffer, cmdHistoryIndex := index })

/-- `KEY_UP`. -/
def showEarlier (lib : StringFunctions) (maxBufferSize : Nat) (s : LineState) :
    Option LineState :=
  if s.history.size = 0 then some s
  else if s.cmdHistoryIndex = maxDword then
    s.showLine lib maxBufferSize s.history.lastIndex
  else if s.cmdHistoryIndex ≠ s.history.firstIndex then
    s.showLine lib maxBufferSize ((s.cmdHistoryIndex + maxDword) % 2 ^ 32 % cmdHistoryMaxSize)
  else s.showLine lib maxBufferSize s.cmdHistoryIndex

/-- `KEY_DOWN`. -/
def showLater (lib : StringFunctions) (maxBufferSize : Nat) (s : LineState) : Option LineState :=
  if s.history.size = 0 then some s
  else if s.cmdHistoryIndex = maxDword then some s
  else if s.cmdHistoryIndex ≠ s.history.lastIndex then
    s.showLine lib maxBufferSize ((s.cmdHistoryIndex + 1) % cmdHistoryMaxSize)
  else s.showLine lib maxBufferSize s.cmdHistoryIndex

/-- `KEY_LEFT`. -/
def moveLeft (s : LineState) : LineState :=
  if s.i = 0 then s else { s with column := (s.column + 255) % 256, i := s.i - 1 }

/-- `KEY_RIGHT`: there is a character, and room for one behind it. -/
def moveRight (maxBufferSize : Nat) (s : LineState) : Option LineState :=
  if s.i < maxBufferSize - 2 then do
    let byte ← s.buffer[s.i]?
    some (if byte = 0 then s else { s with column := (s.column + 1) % 256, i := s.i + 1 })
  else some s

/-- `KEY_HOME`. -/
def moveHome (s : LineState) : LineState :=
  if s.i = 0 then s else { s with column := (s.column + 256 - s.i % 256) % 256, i := 0 }

/-- What is done with any other key, when it stands for a character. -/
def insertChar (lib : StringFunctions) (maxBufferSize : Nat) (s : LineState) (c : Nat) :
    Option LineState :=
  if c = 0 then some s
  else do
    let shifted ← shiftRight s.i
      (asInt (strlenS lib s.buffer (maxBufferSize - 1)) + 1 - s.i).toNat s.buffer
    let buffer ← storeByte shifted s.i c
    some { s with buffer := buffer, i := s.i + 1, column := (s.column + 1) % 256 }

/-- One round of the loop, and whether the loop is left. -/
def getsKey (lib : StringFunctions) (maxBufferSize : Nat) (s : LineState) (press : KeyInput) :
    Option (LineState × Bool) :=
  if press.key = keyReturn then (s.enterLine lib maxBufferSize).map (·,true)
  else if press.key = keyBackspace then (s.deleteLeft lib maxBufferSize).map (·,false)
  else if press.key = keyDelete then some (s,false)
  else if press.key = keyUp then (s.showEarlier lib maxBufferSize).map (·,false)
  else if press.key = keyDown then (s.showLater lib maxBufferSize).map (·,false)
  else if press.key = keyLeft then some (s.moveLeft,false)
  else if press.key = keyRight then (s.moveRight maxBufferSize).map (·,false)
  else if press.key = keyHome then some (s.moveHome,false)
  else if press.key = keyEnd then some (s.moveToEnd lib maxBufferSize,false)
  else if press.key = keyTab then some (s,false)
  else
    (s.insertChar lib maxBufferSize
        (keyboardKeyToAscii press.shift press.capsLock press.key)).map
      (fun s' => (s',decide (maxBufferSize - 1 ≤ s'.i)))

/-- The rounds for the keys that arrive; `getch` does not return `KEY_UNKNOWN`. -/
def getsLoop (lib : StringFunctions) (maxBufferSize : Nat) (s : LineState) :
    List KeyInput → Option (LineState × Bool)
  | [] => some (s,false)
  | press :: rest =>
    if press.key = keyUnknown then getsLoop lib maxBufferSize s rest
    else do
      let (s',left) ← s.getsKey lib maxBufferSize press
      if left then some (s',true) else getsLoop lib maxBufferSize s' rest

end LineState

def maxBufferSize (bufferSize : Nat) : Nat := min bufferSize (charsPerLine - cmdShellSize + 1)

/-- `gets_s` with the keys that arrive: its state, and whether it has returned, with the index as
the length of the line. -/
def getsS (lib : StringFunctions) (history : CmdHistory) (bufferSize : Nat)
    (keys : List KeyInput) : Option (LineState × Bool) := do
  assert (decide (1 < bufferSize))
  (LineState.start history bufferSize).getsLoop lib (maxBufferSize bufferSize) keys

/-- The history that calls of `gets_s` leave, one after another. -/
inductive HistoryReached (lib : StringFunctions) : CmdHistory → Prop
  | start : HistoryReached lib .start
  | call {history : CmdHistory} {bufferSize : Nat} {keys : List KeyInput} {s : LineState}
      (h : HistoryReached lib history) (hcall : getsS lib history bufferSize keys = some (s,true)) :
      HistoryReached lib s.history

/-- The buffer holds a line, and the index is its length. -/
def HasLine (bufferSize : Nat) (s : LineState) : Prop :=
  s.buffer.length = bufferSize ∧ 0 ∈ s.buffer ∧ s.i = (cString s.buffer).length

/-- What a call has to do: to write nothing but the buffer and the history, to keep the cursor with
the index and the index within the line, and to return a line with its length. -/
structure ReadsLine (lib : StringFunctions) (history : CmdHistory) (bufferSize : Nat)
    (keys : List KeyInput) : Prop where
  inBounds : ∃ result, getsS lib history bufferSize keys = some result
  cursor : ∀ before s left, before <+: keys →
    getsS lib history bufferSize before = some (s,left) →
      s.column = cmdShellSize + s.i ∧ s.i ≤ (cString s.buffer).length
  line : ∀ s, getsS lib history bufferSize keys = some (s,true) → HasLine bufferSize s

/-- `RETURN` is pressed where the trimmed line ends, and a character behind a full line only when
the buffer is longer than the line. -/
structure EndsClean (lib : StringFunctions) (bufferSize : Nat) (s : LineState)
    (press : KeyInput) : Prop where
  trimmed : press.key = keyReturn → (cString s.buffer).length ≠ 0 →
    ∀ buffer, lib.strtrim s.buffer = some buffer → s.i = (cString buffer).length
  fits : press.key ≠ keyReturn → press.key ≠ keyBackspace →
    keyboardKeyToAscii press.shift press.capsLock press.key ≠ 0 →
    s.i + 1 = maxBufferSize bufferSize → maxBufferSize bufferSize < bufferSize

instance (lib : StringFunctions) (bufferSize : Nat) (s : LineState) (press : KeyInput) :
    Decidable (EndsClean lib bufferSize s press) :=
  decidable_of_iff ((press.key = keyReturn → (cString s.buffer).length ≠ 0 →
      ∀ buffer ∈ lib.strtrim s.buffer, s.i = (cString buffer).length) ∧
    (press.key ≠ keyReturn → press.key ≠ keyBackspace →
      keyboardKeyToAscii press.shift press.capsLock press.key ≠ 0 →
      s.i + 1 = maxBufferSize bufferSize → maxBufferSize bufferSize < bufferSize))
    ⟨fun h => ⟨h.1,h.2⟩,fun h => ⟨h.trimmed,h.fits⟩⟩

theorem zero_notMem_cString (bytes : List Nat) : 0 ∉ cString bytes := by
  intro hmem
  simpa using List.mem_takeWhile_imp hmem

@[simp] theorem cString_cons (byte : Nat) (bytes : List Nat) :
    cString (byte :: bytes) = if byte = 0 then [] else byte :: cString bytes := by
  by_cases hbyte : byte = 0 <;> simp [cString,hbyte]

theorem cString_append_zero {text : List Nat} (htext : 0 ∉ text) (rest : List Nat) :
    cString (text ++ 0 :: rest) = text := by
  induction text with
  | nil => rfl
  | cons byte text ih =>
    rw [List.mem_cons,not_or] at htext
    rw [List.cons_append,cString_cons,if_neg (Ne.symm htext.1),ih htext.2]

theorem eq_cString_append {bytes : List Nat} (h : (cString bytes).length < bytes.length) :
    ∃ rest, bytes = cString bytes ++ 0 :: rest := by
  induction bytes with
  | nil => simp at h
  | cons byte bytes ih =>
    by_cases hbyte : byte = 0
    · refine ⟨bytes,?_⟩
      rw [cString_cons,if_pos hbyte,hbyte]
      rfl
    · rw [cString_cons,if_neg hbyte] at h ⊢
      obtain ⟨rest,hrest⟩ := ih (by simpa using h)
      exact ⟨rest,congrArg (byte :: ·) hrest⟩

theorem zero_mem_iff {bytes : List Nat} : 0 ∈ bytes ↔ (cString bytes).length < bytes.length := by
  constructor
  · intro hmem
    rcases Nat.lt_or_ge (cString bytes).length bytes.length with h | h
    · exact h
    · have hsame := (List.takeWhile_prefix (l := bytes) (· ≠ 0)).eq_of_length_le h
      exact absurd hmem (hsame ▸ zero_notMem_cString bytes)
  · intro h
    obtain ⟨rest,hbytes⟩ := eq_cString_append h
    rw [hbytes]
    simp

section Strings

variable {lib : StringFunctions} {text rest : List Nat} {bound : Nat}

theorem strlenS_of_lt (htext : 0 ∉ text) (hbound : text.length < bound) :
    strlenS lib (text ++ 0 :: rest) bound = text.length := by
  rw [strlenS,if_pos,cString_append_zero htext]
  refine List.mem_take_iff_getElem.mpr ⟨text.length,?_,?_⟩
  · simp
    omega
  · simp

theorem strlenS_of_le (htext : 0 ∉ text) (hbound : bound ≤ text.length) :
    strlenS lib (text ++ 0 :: rest) bound = lib.invalidStringSize := by
  rw [strlenS,if_neg]
  rw [List.take_append_of_le_length hbound]
  exact fun hmem => htext (List.mem_of_mem_take hmem)

theorem asInt_of_lt {n : Nat} (h : n < 2 ^ 31) : asInt n = n := if_pos h

theorem asInt_invalid (hlib : lib.Documented) : asInt lib.invalidStringSize < 0 := by
  have hinvalid := hlib.invalid
  rw [asInt,if_neg (by omega)]
  rw [maxDword] at hinvalid
  omega

end Strings

theorem storeByte_append (front : List Nat) (old byte : Nat) (rest : List Nat) :
    storeByte (front ++ old :: rest) front.length byte = some (front ++ byte :: rest) := by
  rw [storeByte,if_pos (by simp)]
  simp

theorem shiftRight_append (front : List Nat) {moved : List Nat} (last : Nat) (rest : List Nat) :
    ∃ byte, shiftRight front.length moved.length (front ++ moved ++ last :: rest) =
      some (front ++ byte :: moved ++ rest) := by
  induction moved using List.reverseRecOn generalizing last rest with
  | nil => exact ⟨last,by simp [shiftRight]⟩
  | append_singleton moved byte ih =>
    obtain ⟨byte',hshift⟩ := ih byte (byte :: rest)
    refine ⟨byte',?_⟩
    have hload : (front ++ (moved ++ [byte]) ++ last :: rest)[front.length + moved.length]? =
        some byte := by
      simp
    have hstore : storeByte (front ++ (moved ++ [byte]) ++ last :: rest)
        (front.length + moved.length + 1) byte =
          some (front ++ moved ++ byte :: byte :: rest) := by
      rw [show front.length + moved.length + 1 = (front ++ (moved ++ [byte])).length by
        simp [Nat.add_assoc],storeByte_append]
      simp
    rw [List.length_append,List.length_singleton,shiftRight,hload]
    simp only [Option.bind_eq_bind,Option.bind_some,hstore,hshift]
    simp

theorem shiftLeft_append {lib : StringFunctions} {maxBufferSize : Nat} {front moved : List Nat}
    {byte : Nat} {rest : List Nat} {fuel : Nat} (hfront : 0 ∉ front) (hbyte : byte ≠ 0) (hmoved : 0 ∉ moved)
    (hlength : front.length + 1 + moved.length < maxBufferSize - 1)
    (hsmall : maxBufferSize < 2 ^ 31) (hfuel : moved.length + 2 ≤ fuel) :
    shiftLeft lib maxBufferSize fuel (front.length + 1) (front ++ byte :: (moved ++ 0 :: rest)) =
      some (front ++ (moved ++ 0 :: 0 :: rest)) := by
  induction moved generalizing front byte fuel with
  | nil =>
    obtain ⟨fuel,rfl⟩ : ∃ n, fuel = n + 2 := ⟨fuel - 2,by omega⟩
    have hstring : 0 ∉ front ++ [byte] := by simp [hfront,hbyte.symm]
    have hstart : front ++ byte :: ([] ++ 0 :: rest) = front ++ [byte] ++ 0 :: rest := by simp
    have hload : (front ++ byte :: ([] ++ 0 :: rest))[front.length + 1]? = some 0 := by simp
    rw [shiftLeft,if_pos,hload]
    · simp only [Option.bind_eq_bind,Option.bind_some,Nat.add_sub_cancel,storeByte_append]
      rw [shiftLeft,if_neg]
      · rfl
      · rw [List.nil_append,strlenS_of_lt hfront (by omega),asInt_of_lt (by omega)]
        omega
    · rw [hstart,strlenS_of_lt hstring (by simpa using hlength),asInt_of_lt]
      · simp
      · simp only [List.length_append,List.length_singleton,List.length_nil] at hlength ⊢
        omega
  | cons next moved ih =>
    obtain ⟨fuel,rfl⟩ : ∃ n, fuel = n + 1 := ⟨fuel - 1,by omega⟩
    rw [List.mem_cons,not_or] at hmoved
    rw [List.length_cons] at hlength hfuel
    have hstring : 0 ∉ front ++ byte :: next :: moved := by
      simp [hfront,hbyte.symm,hmoved.1,hmoved.2]
    have hstart : front ++ byte :: (next :: moved ++ 0 :: rest) =
        front ++ byte :: next :: moved ++ 0 :: rest := by simp
    have hload : (front ++ byte :: (next :: moved ++ 0 :: rest))[front.length + 1]? =
        some next := by simp
    have hnext := @ih (front ++ [next]) next fuel (by simp [hfront,hmoved.1]) (Ne.symm hmoved.1)
      hmoved.2 (by simp; omega) (by omega)
    rw [shiftLeft,if_pos,hload]
    · simp only [Option.bind_eq_bind,Option.bind_some,Nat.add_sub_cancel,storeByte_append]
      simpa using hnext
    · rw [hstart,strlenS_of_lt hstring (by simp; omega),asInt_of_lt]
      · simp
        omega
      · simp only [List.length_append,List.length_cons]
        omega

theorem shiftLeft_of_full {lib : StringFunctions} (hlib : lib.Documented) {maxBufferSize : Nat}
    {text rest : List Nat} {fuel j : Nat} (htext : 0 ∉ text)
    (hlength : maxBufferSize - 1 ≤ text.length) :
    shiftLeft lib maxBufferSize (fuel + 1) j (text ++ 0 :: rest) = some (text ++ 0 :: rest) := by
  have hinvalid := asInt_invalid hlib
  rw [shiftLeft,if_neg]
  rw [strlenS_of_le htext hlength]
  omega

structure HistoryInv (history : CmdHistory) : Prop where
  count : history.lines.length = cmdHistoryMaxSize
  lines : ∀ line ∈ history.lines, line.length = charsPerLine ∧ 0 ∈ line
  firstIndex : history.firstIndex < cmdHistoryMaxSize
  size : history.size ≤ cmdHistoryMaxSize

/-- The string fits, and nothing is written behind the end of the line. -/
structure BufferInv (bufferSize : Nat) (buffer : List Nat) : Prop where
  length : buffer.length = bufferSize
  text : (cString buffer).length < maxBufferSize bufferSize
  beyond : buffer.drop (maxBufferSize bufferSize) =
    List.replicate (bufferSize - maxBufferSize bufferSize) 0

structure LineInv (bufferSize : Nat) (s : LineState) : Prop where
  buffer : BufferInv bufferSize s.buffer
  index : s.i ≤ (cString s.buffer).length
  column : s.column = cmdShellSize + s.i
  history : HistoryInv s.history
  historyIndex : s.cmdHistoryIndex = maxDword ∨ s.cmdHistoryIndex < cmdHistoryMaxSize

theorem maxBufferSize_bounds {bufferSize : Nat} (h : 1 < bufferSize) :
    2 ≤ maxBufferSize bufferSize ∧ maxBufferSize bufferSize ≤ bufferSize ∧
      maxBufferSize bufferSize ≤ 78 := by
  simp only [maxBufferSize,charsPerLine,cmdShellSize]
  omega

theorem HistoryInv.start : HistoryInv .start := by
  refine ⟨List.length_replicate,?_,by decide,by decide⟩
  intro line hline
  rw [List.eq_of_mem_replicate hline]
  decide

theorem HistoryInv.lastIndex_lt (history : CmdHistory) :
    history.lastIndex < cmdHistoryMaxSize :=
  Nat.mod_lt _ (by decide)

theorem HistoryInv.advance {history : CmdHistory} (h : HistoryInv history) :
    HistoryInv history.advance := by
  have hsize := h.size
  unfold CmdHistory.advance
  split
  · exact ⟨h.count,h.lines,Nat.mod_lt _ (by decide),h.size⟩
  · rename_i hroom
    exact ⟨h.count,h.lines,h.firstIndex,Nat.lt_of_le_of_ne hsize hroom⟩

theorem HistoryInv.getElem? {history : CmdHistory} (h : HistoryInv history) {index : Nat}
    (hindex : index < cmdHistoryMaxSize) :
    ∃ line, history.lines[index]? = some line ∧ line.length = charsPerLine ∧ 0 ∈ line := by
  have hbound : index < history.lines.length := by
    rw [h.count]
    exact hindex
  exact ⟨_,List.getElem?_eq_getElem hbound,h.lines _ (List.getElem_mem hbound)⟩

theorem HistoryInv.setLine {history : CmdHistory} (h : HistoryInv history) {line : List Nat}
    (hlength : line.length = charsPerLine) (hline : 0 ∈ line) (index : Nat) :
    HistoryInv { history with lines := history.lines.set index line } := by
  refine ⟨by rw [List.length_set,h.count],?_,h.firstIndex,h.size⟩
  intro line' hmem
  rcases List.mem_or_eq_of_mem_set hmem with hold | rfl
  · exact h.lines line' hold
  · exact ⟨hlength,hline⟩

namespace BufferInv

variable {lib : StringFunctions} {bufferSize : Nat} {buffer : List Nat}

theorem replicate {bufferSize : Nat} (hsize : 1 < bufferSize) :
    BufferInv bufferSize (List.replicate bufferSize 0) := by
  have hbounds := maxBufferSize_bounds hsize
  refine ⟨List.length_replicate,?_,by rw [List.drop_replicate]⟩
  rw [show bufferSize = bufferSize - 1 + 1 by omega,List.replicate_succ,cString_cons,if_pos rfl]
  exact Nat.lt_of_lt_of_le Nat.zero_lt_two (by rw [Nat.sub_add_cancel (by omega)]; exact hbounds.1)

theorem split (h : BufferInv bufferSize buffer) (hsize : 1 < bufferSize) :
    ∃ text rest, buffer = text ++ 0 :: rest ∧ 0 ∉ text ∧ cString buffer = text := by
  have hbounds := maxBufferSize_bounds hsize
  have htext := h.text
  obtain ⟨rest,hrest⟩ := @eq_cString_append buffer (by rw [h.length]; omega)
  exact ⟨_,rest,hrest,zero_notMem_cString buffer,rfl⟩

theorem strlenS (h : BufferInv bufferSize buffer) (hsize : 1 < bufferSize) :
    strlenS lib buffer (maxBufferSize bufferSize) = (cString buffer).length := by
  have hfits := h.text
  obtain ⟨text,rest,rfl,htext,hstring⟩ := h.split hsize
  rw [hstring] at hfits ⊢
  exact strlenS_of_lt htext hfits

theorem replaceFront {front line rest : List Nat} (h : BufferInv bufferSize (front ++ rest))
    (hlength : front.length = line.length + 1) (hline : 0 ∉ line)
    (hfits : line.length < maxBufferSize bufferSize) :
    BufferInv bufferSize (line ++ 0 :: rest) := by
  have hfront : front.length ≤ maxBufferSize bufferSize := by omega
  have hput : (line ++ [0]).length = front.length := by rw [List.length_append,hlength]; rfl
  rw [List.append_cons]
  refine ⟨?_,?_,?_⟩
  · rw [← h.length,@List.length_append _ front,← hput,← List.length_append]
  · rwa [← List.append_cons,cString_append_zero hline]
  · rw [← h.beyond,@List.drop_append _ front,@List.drop_append _ (line ++ [0]),hput,
      List.drop_eq_nil_of_le hfront,List.drop_eq_nil_of_le (hput ▸ hfront)]

theorem strncpy (h : BufferInv bufferSize buffer) (hlib : lib.Documented) (hsize : 1 < bufferSize)
    {line : List Nat} (hline : 0 ∈ line) :
    ∃ copied, lib.strncpy buffer line (maxBufferSize bufferSize - 1) = some copied ∧
      BufferInv bufferSize copied := by
  have hbounds := maxBufferSize_bounds hsize
  obtain ⟨copied,hcopy,hlength,⟨n,hn,htext⟩,hdrop⟩ := hlib.copies buffer line
    (maxBufferSize bufferSize - 1) (by rw [h.length]; omega) hline
  rw [Nat.sub_add_cancel (by omega)] at hdrop
  refine ⟨copied,hcopy,hlength.trans h.length,?_,hdrop.trans h.beyond⟩
  rw [htext,List.length_take]
  omega

end BufferInv

namespace LineInv

variable {lib : StringFunctions} {bufferSize : Nat} {s : LineState}

theorem start (hsize : 1 < bufferSize) {history : CmdHistory} (hhistory : HistoryInv history) :
    LineInv bufferSize (.start history bufferSize) :=
  ⟨BufferInv.replicate hsize,Nat.zero_le _,rfl,hhistory,Or.inl rfl⟩

theorem index_lt (h : LineInv bufferSize s) : s.i < maxBufferSize bufferSize :=
  Nat.lt_of_le_of_lt h.index h.buffer.text

theorem moveToEnd (h : LineInv bufferSize s) (hsize : 1 < bufferSize) {buffer : List Nat}
    (hbuffer : BufferInv bufferSize buffer) {index : Nat}
    (hindex : index = maxDword ∨ index < cmdHistoryMaxSize) :
    LineInv bufferSize ({ s with buffer := buffer, cmdHistoryIndex := index }.moveToEnd lib
      (maxBufferSize bufferSize)) := by
  have hbounds := maxBufferSize_bounds hsize
  have hlength := @BufferInv.strlenS lib _ _ hbuffer hsize
  have htext := hbuffer.text
  refine ⟨hbuffer,hlength.le,?_,h.history,hindex⟩
  simp only [LineState.moveToEnd,hlength,cmdShellSize]
  omega

theorem showLine (h : LineInv bufferSize s) (hlib : lib.Documented) (hsize : 1 < bufferSize)
    {index : Nat} (hindex : index < cmdHistoryMaxSize) :
    ∃ s', s.showLine lib (maxBufferSize bufferSize) index = some s' ∧ LineInv bufferSize s' := by
  obtain ⟨line,hline,_,hzero⟩ := h.history.getElem? hindex
  obtain ⟨copied,hcopy,hcopied⟩ := h.buffer.strncpy hlib hsize hzero
  refine ⟨_,?_,@LineInv.moveToEnd lib _ _ h hsize _ hcopied _ (Or.inr hindex)⟩
  rw [LineState.showLine,hline]
  simp only [Option.bind_eq_bind,Option.bind_some,hcopy]

theorem historyIndex_lt (h : LineInv bufferSize s) (hindex : s.cmdHistoryIndex ≠ maxDword) :
    s.cmdHistoryIndex < cmdHistoryMaxSize :=
  h.historyIndex.resolve_left hindex

theorem showEarlier (h : LineInv bufferSize s) (hlib : lib.Documented) (hsize : 1 < bufferSize) :
    ∃ s', s.showEarlier lib (maxBufferSize bufferSize) = some s' ∧ LineInv bufferSize s' := by
  unfold LineState.showEarlier
  split
  · exact ⟨s,rfl,h⟩
  · split
    · exact h.showLine hlib hsize (HistoryInv.lastIndex_lt _)
    · rename_i hindex
      split
      · exact h.showLine hlib hsize (Nat.mod_lt _ (by decide))
      · exact h.showLine hlib hsize (h.historyIndex_lt hindex)

theorem showLater (h : LineInv bufferSize s) (hlib : lib.Documented) (hsize : 1 < bufferSize) :
    ∃ s', s.showLater lib (maxBufferSize bufferSize) = some s' ∧ LineInv bufferSize s' := by
  unfold LineState.showLater
  split
  · exact ⟨s,rfl,h⟩
  · split
    · exact ⟨s,rfl,h⟩
    · rename_i hindex
      split
      · exact h.showLine hlib hsize (Nat.mod_lt _ (by decide))
      · exact h.showLine hlib hsize (h.historyIndex_lt hindex)

theorem moveLeft (h : LineInv bufferSize s) (hsize : 1 < bufferSize) :
    LineInv bufferSize s.moveLeft := by
  have hbounds := maxBufferSize_bounds hsize
  have hindex := h.index
  have hlt := h.index_lt
  have hcolumn := h.column
  rw [cmdShellSize] at hcolumn
  unfold LineState.moveLeft
  split
  · exact h
  · refine ⟨h.buffer,?_,?_,h.history,h.historyIndex⟩
    · dsimp only
      omega
    · dsimp only [cmdShellSize]
      omega

theorem moveHome (h : LineInv bufferSize s) (hsize : 1 < bufferSize) :
    LineInv bufferSize s.moveHome := by
  have hbounds := maxBufferSize_bounds hsize
  have hlt := h.index_lt
  have hcolumn := h.column
  rw [cmdShellSize] at hcolumn
  unfold LineState.moveHome
  split
  · exact h
  · refine ⟨h.buffer,Nat.zero_le _,?_,h.history,h.historyIndex⟩
    dsimp only [cmdShellSize]
    omega

theorem moveRight (h : LineInv bufferSize s) (hsize : 1 < bufferSize) :
    ∃ s', s.moveRight (maxBufferSize bufferSize) = some s' ∧ LineInv bufferSize s' := by
  have hbounds := maxBufferSize_bounds hsize
  have hindex := h.index
  have hlt := h.index_lt
  have hcolumn := h.column
  rw [cmdShellSize] at hcolumn
  unfold LineState.moveRight
  split
  · obtain ⟨text,rest,hbuffer,_,hstring⟩ := h.buffer.split hsize
    have hbound : s.i < s.buffer.length := by
      rw [h.buffer.length]
      omega
    rw [List.getElem?_eq_getElem hbound]
    refine ⟨_,rfl,?_⟩
    split
    · exact h
    · rename_i hbyte
      have hinside : s.i ≠ (cString s.buffer).length := by
        intro heq
        apply hbyte
        have hget : s.buffer[s.i]? = some 0 := by
          rw [heq,hstring,hbuffer]
          simp
        rw [List.getElem?_eq_getElem hbound] at hget
        exact Option.some.inj hget
      refine ⟨h.buffer,?_,?_,h.history,h.historyIndex⟩
      · dsimp only
        omega
      · dsimp only [cmdShellSize]
        omega
  · exact ⟨s,rfl,h⟩

theorem deleteLeft (h : LineInv bufferSize s) (hlib : lib.Documented) (hsize : 1 < bufferSize) :
    ∃ s', s.deleteLeft lib (maxBufferSize bufferSize) = some s' ∧ LineInv bufferSize s' := by
  have hbounds := maxBufferSize_bounds hsize
  have hindex := h.index
  have hfits := h.buffer.text
  have hcolumn := h.column
  rw [cmdShellSize] at hcolumn
  obtain ⟨text,rest,hbuffer,htext,hstring⟩ := h.buffer.split hsize
  rw [hstring] at hindex hfits
  unfold LineState.deleteLeft
  split
  · exact ⟨s,rfl,h⟩
  · rename_i hi
    rcases Nat.lt_or_ge text.length (maxBufferSize bufferSize - 1) with hroom | hfull
    · obtain ⟨front,byte,moved,rfl,hfront⟩ : ∃ front byte moved,
          text = front ++ byte :: moved ∧ front.length + 1 = s.i := by
        refine ⟨text.take (s.i - 1),_,text.drop (s.i - 1 + 1),
          (List.take_append_drop (s.i - 1) text).symm.trans
            (congrArg _ (List.drop_eq_getElem_cons (show s.i - 1 < text.length by omega))),?_⟩
        rw [List.length_take]
        omega
      rw [List.mem_append,List.mem_cons,not_or,not_or] at htext
      rw [List.length_append,List.length_cons] at hroom hindex hfits
      have hshift := @shiftLeft_append lib (maxBufferSize bufferSize) front moved byte rest
        (maxBufferSize bufferSize + 1) htext.1 (Ne.symm htext.2.1) htext.2.2 (by omega) (by omega)
        (by omega)
      have hnext : 0 ∉ front ++ moved := by simp [htext.1,htext.2.2]
      have hresult : front ++ (moved ++ 0 :: 0 :: rest) = front ++ moved ++ 0 :: 0 :: rest := by simp
      rw [hbuffer,List.append_assoc,List.cons_append,← hfront,hshift,hresult]
      refine ⟨_,rfl,?_,?_,?_,h.history,h.historyIndex⟩
      · have hold := h.buffer
        rw [hbuffer] at hold
        refine hold.replaceFront ?_ hnext ?_
        · simp only [List.length_append,List.length_cons,Nat.add_assoc]
        · rw [List.length_append]
          omega
      · dsimp only
        rw [cString_append_zero hnext,List.length_append]
        omega
      · dsimp only [cmdShellSize]
        omega
    · rw [hbuffer,shiftLeft_of_full hlib htext hfull]
      have hold := h.buffer
      rw [hbuffer] at hold
      refine ⟨_,rfl,hold,?_,?_,h.history,h.historyIndex⟩
      · dsimp only
        rw [cString_append_zero htext]
        omega
      · dsimp only [cmdShellSize]
        omega

theorem column_succ (h : LineInv bufferSize s) (hsize : 1 < bufferSize) :
    (s.column + 1) % 256 = cmdShellSize + (s.i + 1) := by
  have hbounds := maxBufferSize_bounds hsize
  have hlt := h.index_lt
  have hcolumn := h.column
  rw [cmdShellSize] at hcolumn ⊢
  omega

theorem putChar (h : LineInv bufferSize s) (hsize : 1 < bufferSize) {front back rest old : List Nat}
    {c : Nat} (hold : BufferInv bufferSize (old ++ rest))
    (hlength : old.length = (front ++ c :: back).length + 1) (hline : 0 ∉ front ++ c :: back)
    (hfits : (front ++ c :: back).length < maxBufferSize bufferSize) (hfront : front.length = s.i) :
    LineInv bufferSize { s with buffer := front ++ c :: back ++ 0 :: rest, i := front.length + 1,
                                column := (s.column + 1) % 256 } := by
  refine ⟨hold.replaceFront hlength hline hfits,?_,?_,h.history,h.historyIndex⟩
  · dsimp only
    rw [cString_append_zero hline,List.length_append,List.length_cons]
    omega
  · dsimp only
    rw [hfront]
    exact h.column_succ hsize

/-- There is room behind the index: the line grows, or the character at the index of a full line
is overwritten. -/
theorem insertChar (h : LineInv bufferSize s) (hlib : lib.Documented) (hsize : 1 < bufferSize)
    {c : Nat} (hc : c ≠ 0) (hroom : s.i + 1 < maxBufferSize bufferSize) :
    ∃ s', s.insertChar lib (maxBufferSize bufferSize) c = some s' ∧ LineInv bufferSize s' := by
  have hbounds := maxBufferSize_bounds hsize
  have hindex := h.index
  have hfits := h.buffer.text
  have hold := h.buffer
  have hinvalid := asInt_invalid hlib
  obtain ⟨text,rest,hbuffer,htext,hstring⟩ := h.buffer.split hsize
  rw [hstring] at hindex hfits
  rw [hbuffer] at hold
  obtain ⟨front,back,rfl,hfront⟩ : ∃ front back, text = front ++ back ∧ front.length = s.i :=
    ⟨text.take s.i,text.drop s.i,(List.take_append_drop _ _).symm,List.length_take_of_le hindex⟩
  rw [LineState.insertChar,if_neg hc,hbuffer]
  rcases Nat.lt_or_ge (front ++ back).length (maxBufferSize bufferSize - 1) with hshort | hfull
  · -- the terminator is moved as well, over the byte behind it
    have hlength := hold.length
    obtain ⟨last,rest,rfl⟩ : ∃ last rest', rest = last :: rest' := by
      cases rest with
      | nil =>
        simp only [List.length_append,List.length_cons,List.length_nil] at hlength hshort
        omega
      | cons last rest => exact ⟨last,rest,rfl⟩
    obtain ⟨byte,hshift⟩ := @shiftRight_append front (back ++ [0]) last rest
    have hrounds : (asInt (front ++ back).length + 1 - (s.i : Int)).toNat = (back ++ [0]).length := by
      rw [asInt_of_lt (by omega)]
      simp only [List.length_append,List.length_singleton]
      omega
    have hstart : front ++ back ++ 0 :: last :: rest = front ++ (back ++ [0]) ++ last :: rest := by
      simp
    have hstore := storeByte_append front byte c (back ++ [0] ++ rest)
    have hnext : 0 ∉ front ++ c :: back := by
      rw [List.mem_append,not_or] at htext
      simp [htext.1,htext.2,hc.symm]
    have hresult : front ++ c :: (back ++ [0] ++ rest) = front ++ c :: back ++ 0 :: rest := by simp
    rw [strlenS_of_lt htext hshort,hrounds,hstart,← hfront,hshift]
    simp only [Option.bind_eq_bind,Option.bind_some,List.append_assoc,List.cons_append] at hstore ⊢
    rw [hstore]
    simp only [List.append_assoc,List.cons_append] at hresult
    simp only [Option.bind_some,hresult]
    rw [← List.cons_append,← List.append_assoc]
    have hover : BufferInv bufferSize (front ++ back ++ [0,last] ++ rest) := by
      rwa [List.append_assoc]
    rw [List.length_append] at hshort
    refine ⟨_,rfl,h.putChar hsize hover ?_ hnext ?_ hfront⟩
    · simp only [List.length_append,List.length_cons,List.length_nil]
      omega
    · rw [List.length_append,List.length_cons]
      omega
  · obtain ⟨old,back,rfl⟩ : ∃ old back', back = old :: back' := by
      cases back with
      | nil =>
        rw [List.append_nil] at hfull
        omega
      | cons old back => exact ⟨old,back,rfl⟩
    have hrounds : (asInt lib.invalidStringSize + 1 - (s.i : Int)).toNat = 0 := by omega
    have hnext : 0 ∉ front ++ c :: back := by
      rw [List.mem_append,List.mem_cons,not_or,not_or] at htext
      simp [htext.1,htext.2.2,hc.symm]
    have hstore := storeByte_append front old c (back ++ 0 :: rest)
    rw [strlenS_of_le htext hfull,hrounds,shiftRight,List.append_assoc,List.cons_append,← hfront]
    simp only [Option.bind_eq_bind,Option.bind_some,hstore]
    rw [← List.cons_append,← List.append_assoc]
    have hover : BufferInv bufferSize (front ++ old :: back ++ [0] ++ rest) := by
      rwa [← List.append_cons]
    rw [List.length_append,List.length_cons] at hfits
    refine ⟨_,rfl,h.putChar hsize hover ?_ hnext ?_ hfront⟩
    · simp only [List.length_append,List.length_cons,List.length_nil]
    · rw [List.length_append,List.length_cons]
      exact hfits

theorem insertChar_full (h : LineInv bufferSize s) (hlib : lib.Documented)
    (hsize : 1 < bufferSize) {c : Nat} (hc : c ≠ 0) (hfull : s.i + 1 = maxBufferSize bufferSize) :
    ∃ s' text, s.insertChar lib (maxBufferSize bufferSize) c = some s' ∧
      s'.i = maxBufferSize bufferSize ∧ s'.column = cmdShellSize + s'.i ∧
      s'.history = s.history ∧ text.length = s'.i ∧ 0 ∉ text ∧
      s'.buffer = text ++ List.replicate (bufferSize - maxBufferSize bufferSize) 0 := by
  have hbounds := maxBufferSize_bounds hsize
  have hindex := h.index
  have hfits := h.buffer.text
  have hbeyond := h.buffer.beyond
  have hinvalid := asInt_invalid hlib
  obtain ⟨text,rest,hbuffer,htext,hstring⟩ := h.buffer.split hsize
  rw [hstring] at hindex hfits
  have hlength : text.length = s.i := by omega
  have hrest : rest = List.replicate (bufferSize - maxBufferSize bufferSize) 0 := by
    rw [← hbeyond,hbuffer,← hfull,← hlength]
    simp
  have hrounds : (asInt lib.invalidStringSize + 1 - (s.i : Int)).toNat = 0 := by omega
  refine ⟨{ s with buffer := text ++ c :: rest, i := s.i + 1, column := (s.column + 1) % 256 },
    text ++ [c],?_,hfull,h.column_succ hsize,rfl,?_,?_,?_⟩
  · rw [LineState.insertChar,if_neg hc,hbuffer,strlenS_of_le htext (by omega),hrounds,shiftRight,
      ← hlength]
    simp only [Option.bind_eq_bind,Option.bind_some,storeByte_append]
  · simp [hlength]
  · simp [htext,hc.symm]
  · simp [hrest]

theorem enterLine (h : LineInv bufferSize s) (hlib : lib.Documented) (hsize : 1 < bufferSize) :
    ∃ s', s.enterLine lib (maxBufferSize bufferSize) = some s' ∧ s'.i = s.i ∧
      s'.column = s.column ∧ HistoryInv s'.history ∧ s'.buffer.length = bufferSize ∧
      0 ∈ s'.buffer ∧
      ((cString s.buffer).length = 0 ∧ s'.buffer = s.buffer ∨
        (cString s.buffer).length ≠ 0 ∧ lib.strtrim s.buffer = some s'.buffer) := by
  have hbounds := maxBufferSize_bounds hsize
  have hfits := h.buffer.text
  have hzero : 0 ∈ s.buffer := by
    rw [zero_mem_iff,h.buffer.length]
    omega
  rw [LineState.enterLine,h.buffer.strlenS hsize]
  by_cases hempty : (cString s.buffer).length = 0
  · rw [if_pos hempty]
    exact ⟨s,rfl,rfl,rfl,h.history,h.buffer.length,hzero,Or.inl ⟨hempty,rfl⟩⟩
  · rw [if_neg hempty]
    have hadvance := h.history.advance
    obtain ⟨trimmed,htrim,hlength,hpart⟩ := hlib.trims s.buffer hzero
    have htrimmed : 0 ∈ trimmed := by
      have hshort := hpart.length_le
      rw [zero_mem_iff,hlength,h.buffer.length]
      omega
    obtain ⟨line,hline,hwidth,_⟩ :=
      hadvance.getElem? (HistoryInv.lastIndex_lt s.history.advance)
    have hroom : maxBufferSize bufferSize - 1 < line.length := by
      rw [hwidth,charsPerLine]
      omega
    obtain ⟨copied,hcopy,hcopied,⟨n,hn,htext⟩,_⟩ := hlib.copies line trimmed _ hroom htrimmed
    have hterminated : 0 ∈ copied := by
      rw [zero_mem_iff,htext,hcopied,List.length_take]
      omega
    have hstored := hadvance.setLine (hcopied.trans hwidth) hterminated s.history.advance.lastIndex
    refine ⟨{ s with buffer := trimmed, history := { s.history.advance with lines := _ } },?_,
      rfl,rfl,hstored,hlength.trans h.buffer.length,htrimmed,Or.inr ⟨hempty,htrim⟩⟩
    simp only [htrim,hline,hcopy,Option.bind_eq_bind,Option.bind_some]

end LineInv

/-- How a round ends. -/
inductive RoundEnds (lib : StringFunctions) (bufferSize : Nat) (s : LineState)
    (press : KeyInput) : LineState → Bool → Prop
  | goesOn {s' : LineState} (hinv : LineInv bufferSize s')
      (hclean : EndsClean lib bufferSize s press) : RoundEnds lib bufferSize s press s' false
  | leaves {s' : LineState} (hcolumn : s'.column = cmdShellSize + s'.i)
      (hhistory : HistoryInv s'.history)
      (hline : HasLine bufferSize s' ↔ EndsClean lib bufferSize s press) :
      RoundEnds lib bufferSize s press s' true

section Rounds

variable {lib : StringFunctions} {bufferSize : Nat} {s : LineState} {press : KeyInput}

theorem keyboardKeyToAscii_of_le {shift capsLock : Bool} {key : Keycode} (h : 128 ≤ key) :
    keyboardKeyToAscii shift capsLock key = 0 :=
  if_pos (Or.inr h)

theorem EndsClean.of_edit (hkey : press.key = keyBackspace ∨ 128 ≤ press.key) :
    EndsClean lib bufferSize s press := by
  refine ⟨?_,?_⟩
  · intro hreturn
    rw [hreturn] at hkey
    exact absurd hkey (by decide)
  · intro _ hbackspace hchar
    exact absurd (keyboardKeyToAscii_of_le (hkey.resolve_left hbackspace)) hchar

theorem RoundEnds.edit {s' : LineState} (hinv : LineInv bufferSize s')
    (hkey : press.key = keyBackspace ∨ 128 ≤ press.key) :
    RoundEnds lib bufferSize s press s' false :=
  .goesOn hinv (.of_edit hkey)

theorem LineInv.hasLine (h : LineInv bufferSize s) (hsize : 1 < bufferSize)
    (hfull : maxBufferSize bufferSize - 1 ≤ s.i) : HasLine bufferSize s := by
  have hbounds := maxBufferSize_bounds hsize
  have hindex := h.index
  have hfits := h.buffer.text
  refine ⟨h.buffer.length,?_,?_⟩
  · rw [zero_mem_iff,h.buffer.length]
    omega
  · omega

theorem LineInv.enterLine_ends (h : LineInv bufferSize s) (hlib : lib.Documented)
    (hsize : 1 < bufferSize) (hkey : press.key = keyReturn) :
    ∃ s', s.enterLine lib (maxBufferSize bufferSize) = some s' ∧
      RoundEnds lib bufferSize s press s' true := by
  obtain ⟨s',henter,hi,hcolumn,hhistory,hlength,hzero,hbuffer⟩ := h.enterLine hlib hsize
  refine ⟨s',henter,.leaves (by rw [hcolumn,hi,h.column]) hhistory ⟨?_,?_⟩⟩
  · intro hline
    refine ⟨?_,fun hne => absurd hkey hne⟩
    intro _ hnonempty buffer htrim
    rcases hbuffer with ⟨hempty,_⟩ | ⟨_,htrim'⟩
    · exact absurd hempty hnonempty
    · rw [htrim'] at htrim
      cases htrim
      rw [← hi]
      exact hline.2.2
  · intro hclean
    refine ⟨hlength,hzero,?_⟩
    rcases hbuffer with ⟨hempty,hsame⟩ | ⟨hnonempty,htrim⟩
    · have hindex := h.index
      rw [hsame,hi]
      omega
    · rw [hi]
      exact hclean.trimmed hkey hnonempty _ htrim

theorem LineInv.insertChar_ends (h : LineInv bufferSize s) (hlib : lib.Documented)
    (hsize : 1 < bufferSize) (hreturn : press.key ≠ keyReturn)
    (hbackspace : press.key ≠ keyBackspace) :
    ∃ s', s.insertChar lib (maxBufferSize bufferSize)
        (keyboardKeyToAscii press.shift press.capsLock press.key) = some s' ∧
      RoundEnds lib bufferSize s press s' (decide (maxBufferSize bufferSize - 1 ≤ s'.i)) := by
  have hbounds := maxBufferSize_bounds hsize
  have hlt := h.index_lt
  have hkept : ∀ s', LineInv bufferSize s' → EndsClean lib bufferSize s press →
      RoundEnds lib bufferSize s press s' (decide (maxBufferSize bufferSize - 1 ≤ s'.i)) := by
    intro s' hinv hclean
    by_cases hfull : maxBufferSize bufferSize - 1 ≤ s'.i
    · rw [decide_eq_true hfull]
      exact .leaves hinv.column hinv.history ⟨fun _ => hclean,fun _ => hinv.hasLine hsize hfull⟩
    · rw [decide_eq_false hfull]
      exact .goesOn hinv hclean
  by_cases hchar : keyboardKeyToAscii press.shift press.capsLock press.key = 0
  · rw [hchar]
    exact ⟨s,if_pos rfl,hkept s h ⟨fun hkey => absurd hkey hreturn,fun _ _ hne => absurd hchar hne⟩⟩
  · rcases Nat.lt_or_ge (s.i + 1) (maxBufferSize bufferSize) with hroom | hfull
    · obtain ⟨s',hinsert,hinv⟩ := h.insertChar hlib hsize hchar hroom
      refine ⟨s',hinsert,hkept s' hinv ⟨fun hkey => absurd hkey hreturn,?_⟩⟩
      intro _ _ _ hfull
      omega
    · have hfull' : s.i + 1 = maxBufferSize bufferSize := by omega
      obtain ⟨s',text,hinsert,hi,hcolumn,hhistory,htext,hzero,hbuffer⟩ :=
        h.insertChar_full hlib hsize hchar hfull'
      refine ⟨s',hinsert,?_⟩
      rw [decide_eq_true (by omega)]
      refine .leaves hcolumn (hhistory ▸ h.history) ⟨?_,?_⟩
      · intro hline
        refine ⟨fun hkey => absurd hkey hreturn,?_⟩
        intro _ _ _ _
        have hmem := hline.2.1
        rw [hbuffer,List.mem_append,List.mem_replicate] at hmem
        have hrest := (hmem.resolve_left hzero).1
        omega
      · intro hclean
        have hlonger := hclean.fits hreturn hbackspace hchar hfull'
        obtain ⟨rest,hrest⟩ : ∃ n, bufferSize - maxBufferSize bufferSize = n + 1 :=
          ⟨bufferSize - maxBufferSize bufferSize - 1,by omega⟩
        refine ⟨?_,?_,?_⟩
        · rw [hbuffer,List.length_append,List.length_replicate]
          omega
        · simp [hbuffer,hrest]
        · rw [hbuffer,hrest,List.replicate_succ,cString_append_zero hzero,htext]

theorem LineInv.getsKey (h : LineInv bufferSize s) (hlib : lib.Documented) (hsize : 1 < bufferSize)
    (press : KeyInput) :
    ∃ s' left, s.getsKey lib (maxBufferSize bufferSize) press = some (s',left) ∧
      RoundEnds lib bufferSize s press s' left := by
  unfold LineState.getsKey
  by_cases hreturn : press.key = keyReturn
  · obtain ⟨s',henter,hends⟩ := h.enterLine_ends hlib hsize hreturn
    rw [if_pos hreturn,henter]
    exact ⟨s',true,rfl,hends⟩
  · rw [if_neg hreturn]
    by_cases hbackspace : press.key = keyBackspace
    · obtain ⟨s',hdelete,hinv⟩ := h.deleteLeft hlib hsize
      rw [if_pos hbackspace,hdelete]
      exact ⟨s',false,rfl,.edit hinv (Or.inl hbackspace)⟩
    · rw [if_neg hbackspace]
      split
      · rename_i hkey
        exact ⟨s,false,rfl,.edit h (Or.inr (by rw [hkey]; decide))⟩
      split
      · rename_i hkey
        obtain ⟨s',hshow,hinv⟩ := h.showEarlier hlib hsize
        rw [hshow]
        exact ⟨s',false,rfl,.edit hinv (Or.inr (by rw [hkey]; decide))⟩
      split
      · rename_i hkey
        obtain ⟨s',hshow,hinv⟩ := h.showLater hlib hsize
        rw [hshow]
        exact ⟨s',false,rfl,.edit hinv (Or.inr (by rw [hkey]; decide))⟩
      split
      · rename_i hkey
        exact ⟨_,false,rfl,.edit (h.moveLeft hsize) (Or.inr (by rw [hkey]; decide))⟩
      split
      · rename_i hkey
        obtain ⟨s',hmove,hinv⟩ := h.moveRight hsize
        rw [hmove]
        exact ⟨s',false,rfl,.edit hinv (Or.inr (by rw [hkey]; decide))⟩
      split
      · rename_i hkey
        exact ⟨_,false,rfl,.edit (h.moveHome hsize) (Or.inr (by rw [hkey]; decide))⟩
      split
      · rename_i hkey
        exact ⟨_,false,rfl,.edit (h.moveToEnd hsize h.buffer h.historyIndex)
          (Or.inr (by rw [hkey]; decide))⟩
      split
      · rename_i hkey
        exact ⟨s,false,rfl,.edit h (Or.inr (by rw [hkey]; decide))⟩
      · obtain ⟨s',hinsert,hends⟩ := h.insertChar_ends hlib hsize hreturn hbackspace
        rw [hinsert]
        exact ⟨s',_,rfl,hends⟩

theorem getsLoop_append {n : Nat} {s s' : LineState} {before : List KeyInput}
    (h : s.getsLoop lib n before = some (s',false)) (keys : List KeyInput) :
    s.getsLoop lib n (before ++ keys) = s'.getsLoop lib n keys := by
  induction before generalizing s with
  | nil =>
    cases h
    rfl
  | cons press rest ih =>
    rw [LineState.getsLoop] at h
    rw [List.cons_append,LineState.getsLoop]
    split at h
    · rename_i hunknown
      rw [if_pos hunknown]
      exact ih h
    · rename_i hkey
      obtain ⟨⟨s₁,left⟩,hround,h⟩ := Option.bind_eq_some_iff.mp h
      rw [if_neg hkey,hround]
      cases left with
      | true => simp at h
      | false => exact ih (by simpa using h)

theorem LineInv.getsLoop (h : LineInv bufferSize s) (hlib : lib.Documented)
    (hsize : 1 < bufferSize) (keys : List KeyInput) :
    ∃ s' left, s.getsLoop lib (maxBufferSize bufferSize) keys = some (s',left) ∧
      (left = false → LineInv bufferSize s') ∧
      (left = true → ∃ before press after s₀, keys = before ++ press :: after ∧
        s.getsLoop lib (maxBufferSize bufferSize) before = some (s₀,false) ∧
        RoundEnds lib bufferSize s₀ press s' true) := by
  induction keys generalizing s with
  | nil => exact ⟨s,false,rfl,fun _ => h,fun hleft => absurd hleft (by decide)⟩
  | cons press rest ih =>
    by_cases hunknown : press.key = keyUnknown
    · obtain ⟨s',left,hloop,hfalse,htrue⟩ := ih h
      refine ⟨s',left,by rw [LineState.getsLoop,if_pos hunknown,hloop],hfalse,?_⟩
      intro hleft
      obtain ⟨before,press',after,s₀,rfl,hbefore,hends⟩ := htrue hleft
      exact ⟨press :: before,press',after,s₀,rfl,
        by rw [LineState.getsLoop,if_pos hunknown,hbefore],hends⟩
    · obtain ⟨s₁,left₁,hround,hends₁⟩ := h.getsKey hlib hsize press
      cases hends₁ with
      | leaves hcolumn hhistory hline =>
        refine ⟨s₁,true,?_,fun hleft => absurd hleft (by decide),fun _ => ?_⟩
        · rw [LineState.getsLoop,if_neg hunknown,hround]
          rfl
        · exact ⟨[],press,rest,s,rfl,rfl,.leaves hcolumn hhistory hline⟩
      | goesOn hinv _ =>
        obtain ⟨s',left,hloop,hfalse,htrue⟩ := ih hinv
        refine ⟨s',left,?_,hfalse,?_⟩
        · rw [LineState.getsLoop,if_neg hunknown,hround]
          simpa using hloop
        · intro hleft
          obtain ⟨before,press',after,s₀,rfl,hbefore,hends⟩ := htrue hleft
          refine ⟨press :: before,press',after,s₀,rfl,?_,hends⟩
          rw [LineState.getsLoop,if_neg hunknown,hround]
          simpa using hbefore

theorem getsS_eq (hsize : 1 < bufferSize) (history : CmdHistory) (keys : List KeyInput) :
    getsS lib history bufferSize keys =
      (LineState.start history bufferSize).getsLoop lib (maxBufferSize bufferSize) keys := by
  simp [getsS,hsize]

end Rounds

section Calls

variable {lib : StringFunctions} {history : CmdHistory} {bufferSize : Nat}

theorem HistoryReached.inv (hlib : lib.Documented) (h : HistoryReached lib history) :
    HistoryInv history := by
  induction h with
  | start => exact HistoryInv.start
  | @call history bufferSize keys s _ hcall ih =>
    have hsize : 1 < bufferSize := by
      obtain ⟨_,hassert,_⟩ := Option.bind_eq_some_iff.mp hcall
      simpa using hassert
    obtain ⟨s',left,hloop,_,htrue⟩ := (LineInv.start hsize ih).getsLoop hlib hsize keys
    rw [getsS_eq hsize,hloop] at hcall
    cases hcall
    obtain ⟨_,_,_,_,_,_,hends⟩ := htrue rfl
    cases hends with
    | leaves _ hhistory _ => exact hhistory

/-- A call of `gets_s` does what it has to do exactly when each key comes in a state in which the
index is the length of the line that is returned. -/
theorem readsLine_iff (hlib : lib.Documented) (hhistory : HistoryReached lib history)
    (hsize : 1 < bufferSize) (keys : List KeyInput) :
    ReadsLine lib history bufferSize keys ↔
      ∀ before press after, keys = before ++ press :: after →
        ∀ s, getsS lib history bufferSize before = some (s,false) →
          EndsClean lib bufferSize s press := by
  have hstart := LineInv.start hsize (hhistory.inv hlib)
  constructor
  · intro h before press after hkeys s hbefore
    rw [getsS_eq hsize] at hbefore
    have hinv : LineInv bufferSize s := by
      obtain ⟨s',left,hloop,hfalse,_⟩ := hstart.getsLoop hlib hsize before
      rw [hbefore] at hloop
      cases hloop
      exact hfalse rfl
    by_cases hunknown : press.key = keyUnknown
    · exact .of_edit (Or.inr (by rw [hunknown]; decide))
    · obtain ⟨s',left,hround,hends⟩ := hinv.getsKey hlib hsize press
      cases hends with
      | goesOn _ hclean => exact hclean
      | leaves _ _ hline =>
        apply hline.mp
        apply h.line
        rw [getsS_eq hsize,hkeys,getsLoop_append hbefore,LineState.getsLoop,if_neg hunknown,hround]
        rfl
  · intro hclean
    have hreturned : ∀ before, before <+: keys → ∀ s,
        getsS lib history bufferSize before = some (s,true) →
          s.column = cmdShellSize + s.i ∧ HasLine bufferSize s := by
      intro before hbefore s hcall
      obtain ⟨more,rfl⟩ := hbefore
      obtain ⟨s',left,hloop,_,htrue⟩ := hstart.getsLoop hlib hsize before
      rw [getsS_eq hsize,hloop] at hcall
      cases hcall
      obtain ⟨before',press,after,s₀,rfl,hstate,hends⟩ := htrue rfl
      cases hends with
      | leaves hcolumn _ hline =>
        refine ⟨hcolumn,hline.mpr (hclean before' press (after ++ more) (by simp) s₀ ?_)⟩
        rw [getsS_eq hsize,hstate]
    refine ⟨?_,?_,?_⟩
    · obtain ⟨s',left,hloop,_,_⟩ := hstart.getsLoop hlib hsize keys
      exact ⟨_,(getsS_eq hsize history keys).trans hloop⟩
    · intro before s left hbefore hcall
      cases left with
      | true =>
        obtain ⟨hcolumn,_,_,hindex⟩ := hreturned before hbefore s hcall
        exact ⟨hcolumn,hindex.le⟩
      | false =>
        obtain ⟨s',left,hloop,hfalse,_⟩ := hstart.getsLoop hlib hsize before
        rw [getsS_eq hsize,hloop] at hcall
        cases hcall
        exact ⟨(hfalse rfl).column,(hfalse rfl).index⟩
    · intro s hcall
      exact (hreturned keys (List.prefix_refl keys) s hcall).2

end Calls

/-- String functions of that kind; blanks are trimmed at both ends. -/
def StringFunctions.plain : StringFunctions where
  invalidStringSize := maxDword
  strncpy destination source count :=
    if count < destination.length ∧ 0 ∈ source then
      let copied := (cString source).take count
      some (copied ++ 0 :: destination.drop (copied.length + 1))
    else none
  strtrim bytes :=
    if 0 ∈ bytes then
      let trimmed := (((cString bytes).dropWhile (· = 32)).reverse.dropWhile (· = 32)).reverse
      some (trimmed ++ 0 :: bytes.drop (trimmed.length + 1))
    else none

theorem length_append_drop {text bytes : List Nat} (h : text.length < bytes.length) :
    (text ++ 0 :: bytes.drop (text.length + 1)).length = bytes.length := by
  rw [List.length_append,List.length_cons,List.length_drop]
  omega

theorem StringFunctions.plain_documented : StringFunctions.plain.Documented := by
  refine ⟨by decide,?_,?_⟩
  · intro destination source count hcount hsource
    have hlength : ((cString source).take count).length ≤ count := List.length_take_le _ _
    have htext : 0 ∉ (cString source).take count :=
      fun hmem => zero_notMem_cString source (List.mem_of_mem_take hmem)
    refine ⟨_,if_pos ⟨hcount,hsource⟩,length_append_drop (by omega),
      ⟨count,le_rfl,cString_append_zero htext _⟩,?_⟩
    rw [show ((cString source).take count) ++ 0 :: destination.drop
        (((cString source).take count).length + 1) = ((cString source).take count ++ [0]) ++
          destination.drop (((cString source).take count).length + 1) by simp,
      List.drop_append,List.drop_eq_nil_of_le (by simp),List.nil_append,List.drop_drop,
      List.length_append,List.length_singleton]
    congr 1
    omega
  · intro bytes hbytes
    have hpart : (((cString bytes).dropWhile (· = 32)).reverse.dropWhile (· = 32)).reverse <:+:
        cString bytes := by
      have hends := List.reverse_prefix.mpr
        (List.dropWhile_suffix (l := ((cString bytes).dropWhile (· = 32)).reverse) (· = 32))
      rw [List.reverse_reverse] at hends
      exact hends.isInfix.trans (List.dropWhile_suffix _).isInfix
    have hshort := hpart.length_le
    have htext := fun hmem => zero_notMem_cString bytes (hpart.subset hmem)
    rw [zero_mem_iff] at hbytes
    refine ⟨_,if_pos (zero_mem_iff.mpr hbytes),length_append_drop (by omega),?_⟩
    rw [cString_append_zero htext]
    exact hpart

/-- A key that was pressed without the shift key. -/
def plainKey (key : Keycode) : KeyInput := ⟨key,false,false⟩

def abcKeys : List KeyInput :=
  [plainKey 'a'.toNat,plainKey 'c'.toNat,plainKey keyLeft,plainKey 'b'.toNat,plainKey keyEnd,
    plainKey keyReturn]

/-- The middle character is put in afterwards. -/
theorem readsLine_three_chars : ReadsLine .plain .start 80 abcKeys := by
  apply (readsLine_iff StringFunctions.plain_documented .start (by decide) _).mpr
  intro before press after hkeys s hbefore
  have hclean : ∀ n < abcKeys.length, (getsS .plain .start 80 (abcKeys.take n)).all
      (fun result => result.2 || abcKeys[n]?.all fun press =>
        decide (EndsClean .plain 80 result.1 press)) = true := by decide +kernel
  have hlength := congrArg List.length hkeys
  rw [List.length_append,List.length_cons] at hlength
  have hkey := hclean before.length (by omega)
  rw [hkeys,List.take_left,List.getElem?_append_right (Nat.le_refl _),Nat.sub_self,hbefore] at hkey
  simpa using hkey

theorem not_readsLine_of_run {lib : StringFunctions} {history : CmdHistory} {bufferSize : Nat}
    {keys : List KeyInput}
    (h : (getsS lib history bufferSize keys).any (fun result =>
      result.2 && decide (0 ∉ result.1.buffer ∨ result.1.i ≠ (cString result.1.buffer).length))) :
    ¬ ReadsLine lib history bufferSize keys := by
  intro hreads
  obtain ⟨⟨s,left⟩,hcall⟩ := hreads.inBounds
  rw [hcall,Option.any_some,Bool.and_eq_true,decide_eq_true_eq] at h
  obtain ⟨rfl,hwrong⟩ := h
  obtain ⟨_,hzero,hlength⟩ := hreads.line s hcall
  rcases hwrong with hnone | hne
  · exact hnone hzero
  · exact hne hlength

/-- The cursor is moved to the left before the line is entered; and a line that was filled from its
front goes on behind its end. -/
theorem readsLine_fails :
    StringFunctions.plain.Documented ∧ HistoryReached .plain .start ∧
      ¬ ReadsLine .plain .start 80 [plainKey 'a'.toNat,plainKey keyLeft,plainKey keyReturn] ∧
      ¬ ReadsLine .plain .start 3 [plainKey 'a'.toNat,plainKey keyHome,plainKey 'b'.toNat,
        plainKey keyEnd,plainKey 'c'.toNat] :=
  ⟨StringFunctions.plain_documented,.start,not_readsLine_of_run (by decide +kernel),
    not_readsLine_of_run (by decide +kernel)⟩

end Hal9000
