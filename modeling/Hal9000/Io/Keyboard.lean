import Hal9000.Common.Machine
import Hal9000.Framework.PastTime
import Hal9000.Framework.TransitionSystem

/-!
# The keyboard

The interrupt handler stores the key of a make code and signals an event; a thread in `getch` waits
for the event, reads the key, clears the event and discards the key. The key that is discarded is
the one stored by then, which may be a later one than the one that was read.
-/

namespace Hal9000

/-- The values of `KEYCODE`; those of printable keys are their ASCII codes. -/
abbrev Keycode := Nat

def keyEscape : Keycode := 0x1001
def keyUp : Keycode := 0x1100
def keyDown : Keycode := 0x1101
def keyLeft : Keycode := 0x1102
def keyRight : Keycode := 0x1103
/-- `KEY_F1` is function key 1; `KEY_F12` has the value of `KEY_F11`. -/
def keyFunction (n : Nat) : Keycode := 0x1200 + n
def keyKpNumLock : Keycode := 0x300f
def keyKpEnter : Keycode := 0x3010
def keyTab : Keycode := 0x4000
def keyCapsLock : Keycode := 0x4001
def keyLShift : Keycode := 0x4002
def keyLCtrl : Keycode := 0x4003
def keyLAlt : Keycode := 0x4004
def keyRShift : Keycode := 0x4006
def keyRCtrl : Keycode := 0x4007
def keyRAlt : Keycode := 0x4008
def keyDelete : Keycode := 0x400b
def keyHome : Keycode := 0x400c
def keyEnd : Keycode := 0x400d
def keyScrollLock : Keycode := 0x4010
def keyUnknown : Keycode := 0x4012
def keyBackspace : Keycode := 8
def keyReturn : Keycode := 13
def keyGrave : Keycode := 96

def charKeys (chars : List Char) : List Keycode := chars.map Char.toNat

/-- `_kkybrd_scancode_std`, sixteen codes a line. -/
def scancodeStd : List Keycode :=
  [keyUnknown,keyEscape] ++ charKeys ['1','2','3','4','5','6','7','8','9','0','-','='] ++
    [keyBackspace,keyTab] ++
  charKeys ['q','w','e','r','t','y','u','i','o','p','[',']'] ++ [keyReturn,keyLCtrl] ++
    charKeys ['a','s'] ++
  charKeys ['d','f','g','h','j','k','l',';','\''] ++ [keyGrave,keyLShift] ++
    charKeys ['\\','z','x','c','v'] ++
  charKeys ['b','n','m',',','.','/'] ++ [keyRShift] ++ charKeys ['*'] ++ [keyRAlt] ++
    charKeys [' '] ++ [keyCapsLock] ++ [1,2,3,4,5].map keyFunction ++
  [6,7,8,9,10].map keyFunction ++ [keyKpNumLock,keyScrollLock] ++
    charKeys ['7','8','9','-','4','5','6','+','1'] ++
  charKeys ['2','3','0','.'] ++ [keyUnknown,keyUnknown,keyUnknown] ++ [11,11].map keyFunction

/-- `_kkybrd_scancode_ext`: the codes that follow a prefix. -/
def scancodeExt : List Keycode :=
  List.replicate 0x1c keyUnknown ++ [keyKpEnter] ++ List.replicate 0x2a keyUnknown ++
    [keyHome,keyUp,keyUnknown,keyUnknown,keyLeft,keyUnknown,keyRight,keyUnknown,keyEnd] ++
    [keyDown,keyUnknown,keyUnknown,keyDelete] ++ List.replicate 5 keyUnknown

structure KeyboardData where
  keycode : Keycode
  numLock : Bool
  scrollLock : Bool
  capsLock : Bool
  shift : Bool
  alt : Bool
  ctrl : Bool
  /-- The static variable of the interrupt handler. -/
  extendedCode : Bool
  deriving DecidableEq

namespace KeyboardData

/-- The special keys that are held down. -/
def setModifier (data : KeyboardData) (key : Keycode) (down : Bool) : KeyboardData :=
  if key = keyLCtrl ∨ key = keyRCtrl then { data with ctrl := down }
  else if key = keyLShift ∨ key = keyRShift then { data with shift := down }
  else if key = keyLAlt ∨ key = keyRAlt then { data with alt := down }
  else data

def toggleLock (data : KeyboardData) (key : Keycode) : KeyboardData :=
  if key = keyCapsLock then { data with capsLock := !data.capsLock }
  else if key = keyKpNumLock then { data with numLock := !data.numLock }
  else if key = keyScrollLock then { data with scrollLock := !data.scrollLock }
  else data

/-- What is set for a make or a break code, before the event is signaled. -/
def updateKey (data : KeyboardData) (key : Keycode) (keyBreak : Bool) : KeyboardData :=
  let data' := if keyBreak then data.setModifier key false
    else ({ data with keycode := key }.setModifier key true).toggleLock key
  { data' with extendedCode := false }

/-- The key of a code; the tables are not read behind their ends. -/
def lookupKey (data : KeyboardData) (code : Nat) : Option Keycode :=
  if data.extendedCode then scancodeExt[code]? else scancodeStd[code]?

end KeyboardData

def isPrefixCode (code : Nat) : Bool := code == 0xe0 || code == 0xe1

/-- `IsBooleanFlagOn(code, KEY_BREAK)`. -/
def isBreakCode (code : Nat) : Bool := code.testBit 7

/-- `_KeyboardIsr` up to its call of `ExEventSignal`, which is left out for a prefix. -/
def keyboardIsr (data : KeyboardData) (code : Nat) : Option (KeyboardData × Bool) :=
  if isPrefixCode code then some ({ data with extendedCode := true },false)
  else do
    let key ← data.lookupKey (if isBreakCode code then code - 0x80 else code)
    some (data.updateKey key (isBreakCode code),true)

/-- The handler has still to signal the event, and to wake the thread that waits for it. -/
inductive KeyboardIsrPc
  | idle
  | signalSet
  | signalWake
  deriving DecidableEq

/-- Where the thread stands that loops on `getch`. -/
inductive GetchPc
  -- ExEventWaitForSignal
  | waitTest
  | waitQueue
  | blocked
  -- KeyboardWaitForKey
  | readKey
  -- KeyboardDiscardLastKey
  | clearEvent (result : Keycode)
  | discardKey (result : Keycode)
  | returning (result : Keycode)
  deriving DecidableEq

structure KeyboardState where
  data : KeyboardData
  signaled : Bool
  isr : KeyboardIsrPc
  getch : GetchPc

inductive KeyboardAction
  | interrupt (code : Nat)
  | isr
  | getch

inductive KeyEvent
  | stored (key : Keycode)
  | read (key : Keycode)
  | discarded
  | returned (key : Keycode)
  deriving DecidableEq

/-- The thread's next step. The event is a notification: a thread that is woken does not test it
again. -/
def getchStep (s : KeyboardState) : Option KeyboardState :=
  match s.getch with
  | .waitTest => some { s with getch := if s.signaled then .readKey else .waitQueue }
  | .waitQueue => some { s with getch := .blocked }
  | .blocked => none
  | .readKey => some { s with getch := .clearEvent s.data.keycode }
  | .clearEvent result => some { s with signaled := false, getch := .discardKey result }
  | .discardKey result =>
    some { s with
      data := { s.data with keycode := keyUnknown }
      getch := if result = keyUnknown then .waitTest else .returning result }
  | .returning _ => some { s with getch := .waitTest }

def keyboardIsrStep (s : KeyboardState) : Option KeyboardState :=
  match s.isr with
  | .idle => none
  | .signalSet => some { s with signaled := true, isr := .signalWake }
  | .signalWake =>
    some { s with
      isr := .idle
      getch := if s.getch = .blocked then .readKey else s.getch }

/-- The handler is not interrupted by its own interrupt. -/
def keyboardStep (s : KeyboardState) : KeyboardAction → Option KeyboardState
  | .interrupt code =>
    if s.isr = .idle then
      (keyboardIsr s.data code).map fun next =>
        { s with data := next.1, isr := if next.2 then .signalSet else .idle }
    else none
  | .isr => keyboardIsrStep s
  | .getch => getchStep s

/-- The key that the handler stores for a code. -/
def storedKey (data : KeyboardData) (code : Nat) : Option Keycode :=
  if isPrefixCode code || isBreakCode code then none else data.lookupKey code

def keyboardEvents (s : KeyboardState) : KeyboardAction → List KeyEvent
  | .interrupt code => (storedKey s.data code).toList.map .stored
  | .isr => []
  | .getch =>
    match s.getch with
    | .readKey => [.read s.data.keycode]
    | .discardKey _ => [.discarded]
    | .returning result => [.returned result]
    | .waitTest | .waitQueue | .blocked | .clearEvent _ => []

/-- `KeyboardInitialize`. -/
def KeyboardState.start : KeyboardState where
  data := ⟨keyUnknown,false,false,false,false,false,false,false⟩
  signaled := false
  isr := .idle
  getch := .waitTest

def keyboardSystem : TransitionSystem KeyboardState KeyboardAction where
  init s := s = .start
  step := keyboardStep

/-- The thread has read a key and not discarded it yet. -/
def GetchPc.hasRead : GetchPc → Bool
  | .clearEvent _ | .discardKey _ => true
  | .waitTest | .waitQueue | .blocked | .readKey | .returning _ => false

/-- The key that the thread will return. -/
def GetchPc.result : GetchPc → Keycode
  | .clearEvent result | .discardKey result | .returning result => result
  | .waitTest | .waitQueue | .blocked | .readKey => keyUnknown

/-- A step after which a stored key is still the one stored and unread. -/
def LeavesKey : KeyEvent → Prop
  | .returned _ => True
  | .stored _ | .read _ | .discarded => False

/-- The key was stored, and since then not overwritten, read or discarded. -/
def Pending (key : Keycode) : List KeyEvent → Prop := Since LeavesKey (· = .stored key)

def LeavesResult : KeyEvent → Prop
  | .stored _ | .discarded => True
  | .read _ | .returned _ => False

/-- The key was read last, and not returned yet. -/
def Unreturned (key : Keycode) : List KeyEvent → Prop := Since LeavesResult (· = .read key)

/-- A key that is read was pending, and what was read before has been returned; a pending key is
not discarded; what is returned is what was read. -/
def KeysKept (history : List KeyEvent) : KeyEvent → Prop
  | .stored _ => True
  | .read key => (key ≠ keyUnknown → Pending key history) ∧
      ∀ earlier, earlier ≠ keyUnknown → ¬ Unreturned earlier history
  | .discarded => ∀ key, key ≠ keyUnknown → ¬ Pending key history
  | .returned key => key ≠ keyUnknown ∧ Unreturned key history

/-- No key is stored between the read of a key and its discard. -/
def StoresNoKeyBetween (s : KeyboardState) : KeyboardAction → Prop
  | .interrupt code => s.getch.hasRead = true → ∀ key ∈ storedKey s.data code, key = keyUnknown
  | .isr | .getch => True

theorem setModifier_keycode (data : KeyboardData) (key : Keycode) (down : Bool) :
    (data.setModifier key down).keycode = data.keycode := by
  unfold KeyboardData.setModifier
  split
  · rfl
  · split
    · rfl
    · split <;> rfl

theorem toggleLock_keycode (data : KeyboardData) (key : Keycode) :
    (data.toggleLock key).keycode = data.keycode := by
  unfold KeyboardData.toggleLock
  split
  · rfl
  · split
    · rfl
    · split <;> rfl

theorem keyboardIsr_keycode {data : KeyboardData} {code : Nat} {next : KeyboardData × Bool}
    (h : keyboardIsr data code = some next) :
    next.1.keycode = (storedKey data code).getD data.keycode := by
  unfold keyboardIsr at h
  split at h
  · rename_i hescape
    cases h
    simp [storedKey,hescape]
  · rename_i hescape
    obtain ⟨key,hkey,h⟩ := Option.bind_eq_some_iff.mp h
    cases h
    by_cases hbreak : isBreakCode code = true
    · simp [KeyboardData.updateKey,setModifier_keycode,storedKey,hbreak]
    · simp only [hbreak,Bool.false_eq_true,if_false] at hkey
      simp [KeyboardData.updateKey,setModifier_keycode,toggleLock_keycode,storedKey,hescape,
        hbreak,hkey]

theorem pending_append {key : Keycode} {history : List KeyEvent} {event : KeyEvent} :
    Pending key (history ++ [event]) ↔
      event = .stored key ∨ LeavesKey event ∧ Pending key history :=
  since_append_singleton

theorem unreturned_append {key : Keycode} {history : List KeyEvent} {event : KeyEvent} :
    Unreturned key (history ++ [event]) ↔
      event = .read key ∨ LeavesResult event ∧ Unreturned key history :=
  since_append_singleton

structure KeyInv (s : KeyboardState) (history : List KeyEvent) : Prop where
  pending : s.getch.hasRead = false → s.data.keycode ≠ keyUnknown →
    Pending s.data.keycode history
  stored : ∀ key, key ≠ keyUnknown → Pending key history →
    s.getch.hasRead = false ∧ s.data.keycode = key
  result : s.getch.result ≠ keyUnknown → Unreturned s.getch.result history
  unreturned : ∀ key, key ≠ keyUnknown → Unreturned key history → s.getch.result = key
  returning : ∀ result, s.getch = .returning result → result ≠ keyUnknown
  kept : Historically KeysKept history

section Step

variable {s s' : KeyboardState} {history : List KeyEvent}

theorem KeyInv.setGetch (h : KeyInv s history) {pc : GetchPc} {signaled : Bool} {isr : KeyboardIsrPc}
    (hhasRead : pc.hasRead = s.getch.hasRead) (hresult : pc.result = s.getch.result)
    (hreturning : ∀ result, pc = .returning result → s.getch = .returning result) :
    KeyInv { s with getch := pc, signaled, isr } history := by
  refine ⟨?_,?_,?_,?_,?_,h.kept⟩
  · intro hread
    exact h.pending (hhasRead ▸ hread)
  · intro key hkey hpending
    rw [hhasRead]
    exact h.stored key hkey hpending
  · intro hne
    rw [hresult] at hne ⊢
    exact h.result hne
  · intro key hkey hunreturned
    rw [hresult]
    exact h.unreturned key hkey hunreturned
  · intro result hpc
    exact h.returning result (hreturning result hpc)

theorem KeyInv.setData (h : KeyInv s history) {data : KeyboardData} {isr : KeyboardIsrPc}
    (hkeycode : data.keycode = s.data.keycode) : KeyInv { s with data, isr } history := by
  refine ⟨?_,?_,h.result,h.unreturned,h.returning,h.kept⟩
  · simp only [hkeycode]
    exact h.pending
  · simp only [hkeycode]
    exact h.stored

theorem KeyInv.store (h : KeyInv s history) {data : KeyboardData} {isr : KeyboardIsrPc}
    (hbetween : s.getch.hasRead = true → data.keycode = keyUnknown) :
    KeyInv { s with data, isr } (history ++ [.stored data.keycode]) := by
  refine ⟨?_,?_,?_,?_,h.returning,historically_append_singleton.mpr ⟨h.kept,trivial⟩⟩
  · intro _ _
    exact pending_append.mpr (Or.inl rfl)
  · intro key hkey hpending
    rcases pending_append.mp hpending with hstored | ⟨hleaves,_⟩
    · have hsame := KeyEvent.stored.inj hstored
      refine ⟨?_,hsame⟩
      cases hread : s.getch.hasRead with
      | false => rfl
      | true => exact absurd ((hsame.symm.trans (hbetween hread))) hkey
    · cases hleaves
  · intro hne
    exact unreturned_append.mpr (Or.inr ⟨trivial,h.result hne⟩)
  · intro key hkey hunreturned
    rcases unreturned_append.mp hunreturned with hread | ⟨_,hunreturned⟩
    · cases hread
    · exact h.unreturned key hkey hunreturned

theorem KeyInv.interrupt (h : KeyInv s history) {code : Nat}
    (hbetween : StoresNoKeyBetween s (.interrupt code))
    (hstep : keyboardStep s (.interrupt code) = some s') :
    KeyInv s' (history ++ keyboardEvents s (.interrupt code)) := by
  simp only [keyboardStep] at hstep
  split at hstep
  · obtain ⟨⟨data,signals⟩,hisr,rfl⟩ := Option.map_eq_some_iff.mp hstep
    have hkeycode := keyboardIsr_keycode hisr
    cases hkey : storedKey s.data code with
    | none =>
      rw [hkey,Option.getD_none] at hkeycode
      simp only [keyboardEvents,hkey,Option.toList_none,List.map_nil,List.append_nil]
      exact h.setData hkeycode
    | some key =>
      rw [hkey,Option.getD_some] at hkeycode
      simp only [keyboardEvents,hkey,Option.toList_some,List.map_cons,List.map_nil,← hkeycode]
      refine h.store fun hread => ?_
      exact hkeycode.trans (hbetween hread key hkey)
  · cases hstep

theorem KeyInv.read (h : KeyInv s history) (hpc : s.getch = .readKey) :
    KeyInv { s with getch := .clearEvent s.data.keycode }
      (history ++ [.read s.data.keycode]) := by
  have hread : s.getch.hasRead = false := by rw [hpc]; rfl
  have hresult : s.getch.result = keyUnknown := by rw [hpc]; rfl
  have hnone : ∀ earlier, earlier ≠ keyUnknown → ¬ Unreturned earlier history := by
    intro earlier hearlier hunreturned
    exact hearlier ((h.unreturned earlier hearlier hunreturned).symm.trans hresult)
  refine ⟨?_,?_,?_,?_,?_,historically_append_singleton.mpr ⟨h.kept,h.pending hread,hnone⟩⟩
  · intro hnot
    cases hnot
  · intro key hkey hpending
    rcases pending_append.mp hpending with hstored | ⟨hleaves,_⟩
    · cases hstored
    · cases hleaves
  · intro _
    exact unreturned_append.mpr (Or.inl rfl)
  · intro key hkey hunreturned
    rcases unreturned_append.mp hunreturned with heq | ⟨hleaves,_⟩
    · exact KeyEvent.read.inj heq
    · cases hleaves
  · intro result hnot
    cases hnot

theorem KeyInv.discard (h : KeyInv s history) {result : Keycode}
    (hpc : s.getch = .discardKey result) :
    KeyInv { s with
      data := { s.data with keycode := keyUnknown }
      getch := if result = keyUnknown then .waitTest else .returning result }
      (history ++ [.discarded]) := by
  have hread : s.getch.hasRead = true := by rw [hpc]; rfl
  have hresult : s.getch.result = result := by rw [hpc]; rfl
  have hnone : ∀ key, key ≠ keyUnknown → ¬ Pending key history := by
    intro key hkey hpending
    rw [(h.stored key hkey hpending).1] at hread
    cases hread
  have hnext : (if result = keyUnknown then GetchPc.waitTest else .returning result).result =
      result := by
    split
    · rename_i hunknown
      rw [hunknown]
      rfl
    · rfl
  refine ⟨fun _ hne => absurd rfl hne,?_,?_,?_,?_,
    historically_append_singleton.mpr ⟨h.kept,hnone⟩⟩
  · intro key hkey hpending
    rcases pending_append.mp hpending with hstored | ⟨hleaves,_⟩
    · cases hstored
    · cases hleaves
  · intro hne
    rw [hnext] at hne ⊢
    rw [← hresult] at hne ⊢
    exact unreturned_append.mpr (Or.inr ⟨trivial,h.result hne⟩)
  · intro key hkey hunreturned
    rcases unreturned_append.mp hunreturned with heq | ⟨_,hunreturned⟩
    · cases heq
    · rw [hnext,← hresult]
      exact h.unreturned key hkey hunreturned
  · intro other hother
    dsimp only at hother
    split at hother
    · cases hother
    · rename_i hne
      exact GetchPc.returning.inj hother ▸ hne

theorem KeyInv.ret (h : KeyInv s history) {result : Keycode} (hpc : s.getch = .returning result) :
    KeyInv { s with getch := .waitTest } (history ++ [.returned result]) := by
  have hread : s.getch.hasRead = false := by rw [hpc]; rfl
  have hresult : s.getch.result = result := by rw [hpc]; rfl
  have hne := h.returning result hpc
  refine ⟨?_,?_,fun hnot => absurd rfl hnot,?_,?_,?_⟩
  · intro _ hkey
    exact pending_append.mpr (Or.inr ⟨trivial,h.pending hread hkey⟩)
  · intro key hkey hpending
    rcases pending_append.mp hpending with hstored | ⟨_,hpending⟩
    · cases hstored
    · exact ⟨rfl,(h.stored key hkey hpending).2⟩
  · intro key hkey hunreturned
    rcases unreturned_append.mp hunreturned with heq | ⟨hleaves,_⟩
    · cases heq
    · cases hleaves
  · intro other hnot
    cases hnot
  · refine historically_append_singleton.mpr ⟨h.kept,hne,?_⟩
    rw [← hresult] at hne ⊢
    exact h.result hne

theorem KeyInv.step (h : KeyInv s history) {action : KeyboardAction}
    (hbetween : StoresNoKeyBetween s action) (hstep : keyboardStep s action = some s') :
    KeyInv s' (history ++ keyboardEvents s action) := by
  cases action with
  | interrupt code => exact h.interrupt hbetween hstep
  | isr =>
    rw [keyboardEvents,List.append_nil]
    simp only [keyboardStep,keyboardIsrStep] at hstep
    split at hstep
    · cases hstep
    · cases hstep
      exact h.setGetch rfl rfl fun _ hpc => hpc
    · cases hstep
      by_cases hblocked : s.getch = .blocked
      · simp only [hblocked,if_true]
        exact h.setGetch (by rw [hblocked]; rfl) (by rw [hblocked]; rfl) (by simp)
      · simp only [hblocked,if_false]
        exact h.setGetch rfl rfl fun _ hpc => hpc
  | getch =>
    simp only [keyboardStep,getchStep] at hstep
    split at hstep
    · rename_i hpc
      cases hstep
      simp only [keyboardEvents,hpc,List.append_nil]
      cases s.signaled <;> exact h.setGetch (by rw [hpc]; rfl) (by rw [hpc]; rfl) (by simp)
    · rename_i hpc
      cases hstep
      simp only [keyboardEvents,hpc,List.append_nil]
      exact h.setGetch (by rw [hpc]; rfl) (by rw [hpc]; rfl) (by simp)
    · cases hstep
    · rename_i hpc
      cases hstep
      simp only [keyboardEvents,hpc]
      exact h.read hpc
    · rename_i result hpc
      cases hstep
      simp only [keyboardEvents,hpc,List.append_nil]
      exact h.setGetch (by rw [hpc]; rfl) (by rw [hpc]; rfl) (by simp)
    · rename_i result hpc
      cases hstep
      simp only [keyboardEvents,hpc]
      exact h.discard hpc
    · rename_i result hpc
      cases hstep
      simp only [keyboardEvents,hpc]
      exact h.ret hpc

theorem KeyInv.start : KeyInv .start [] := by
  refine ⟨fun _ hne => absurd rfl hne,?_,fun hne => absurd rfl hne,?_,?_,historically_nil⟩
  · intro key _ hpending
    exact absurd hpending not_since_nil
  · intro key _ hunreturned
    exact absurd hunreturned not_since_nil
  · intro result hpc
    cases hpc

end Step

/-- Every key is returned once or overwritten in the runs in which none is stored while the one
before is discarded. -/
theorem keys_kept {p : KeyboardState × List KeyEvent}
    (h : (keyboardSystem.recording keyboardEvents).ReachableUnder
      (fun p action => StoresNoKeyBetween p.1 action) p) :
    Historically KeysKept p.2 := by
  have hinv : KeyInv p.1 p.2 := by
    induction h with
    | init h =>
      obtain ⟨hinit,hhistory⟩ := h
      rw [hhistory,hinit]
      exact KeyInv.start
    | step _ hbetween hstep ih =>
      obtain ⟨hstep,hhistory⟩ := TransitionSystem.recording_step.mp hstep
      rw [hhistory]
      exact ih.step hbetween hstep
  exact hinv.kept

instance (s : KeyboardState) : ∀ action, Decidable (StoresNoKeyBetween s action)
  | .interrupt code =>
    inferInstanceAs (Decidable (_ → ∀ key ∈ storedKey s.data code, key = keyUnknown))
  | .isr | .getch => .isTrue trivial

/-- The handler runs to its end. -/
def pressKey (code : Nat) : List KeyboardAction := [.interrupt code,.isr,.isr]

/-- The thread waits for the first key; the second one is pressed while it returns the first. -/
def typeTwo : List KeyboardAction :=
  [.getch,.getch] ++ pressKey 0x1e ++ List.replicate 3 .getch ++ pressKey 0x1f ++
    List.replicate 5 .getch

theorem keys_kept_two : ∃ p : KeyboardState × List KeyEvent,
    (keyboardSystem.recording keyboardEvents).ReachableUnder
      (fun p action => StoresNoKeyBetween p.1 action) p ∧
    p.2 = [.stored 97,.read 97,.discarded,.stored 115,.returned 97,.read 115,.discarded] ∧
      Historically KeysKept p.2 := by
  obtain ⟨p,hreach,hp⟩ := TransitionSystem.exists_reachable
    (keyboardSystem.recording keyboardEvents)
    (fun p action => StoresNoKeyBetween p.1 action) (.start,[]) ⟨rfl,rfl⟩ typeTwo
    (fun p => p.2 ==
      [.stored 97,.read 97,.discarded,.stored 115,.returned 97,.read 115,.discarded])
    (by decide +kernel) (by decide +kernel)
  exact ⟨p,hreach,beq_iff_eq.mp hp,keys_kept hreach⟩

/-- The second key is pressed after the first one has been read, and is discarded with it. -/
def typeFast : List KeyboardAction :=
  [.getch,.getch] ++ pressKey 0x1e ++ [.getch] ++ pressKey 0x1f ++ List.replicate 3 .getch

theorem key_lost : ∃ p : KeyboardState × List KeyEvent,
    (keyboardSystem.recording keyboardEvents).Reachable p ∧ ¬ Historically KeysKept p.2 := by
  obtain ⟨p,hreach,hp⟩ := TransitionSystem.exists_reachable
    (keyboardSystem.recording keyboardEvents) (fun _ _ => True) (.start,[]) ⟨rfl,rfl⟩ typeFast
    (fun p => p.2 == [.stored 97,.read 97,.stored 115,.discarded,.returned 97])
    (TransitionSystem.runSatisfies_of_forall (fun _ _ => trivial) _ _) (by decide +kernel)
  refine ⟨p,hreach,?_⟩
  intro hkept
  have hdiscarded := hkept [.stored 97,.read 97,.stored 115] .discarded [.returned 97]
    (by rw [beq_iff_eq.mp hp]; rfl)
  exact hdiscarded 115 (by decide) ⟨[.stored 97,.read 97],_,[],rfl,rfl,by simp⟩

end Hal9000
