import Hal9000.Io.Keyboard

/-!
# The modifier keys

One flag stands for all keys of a kind. What is held down is read off the bytes that the keyboard
has sent, key by key, and compared with the flags that the interrupt handler leaves.
-/

namespace Hal9000

/-- The handler for one byte after another; no result when a table is read behind its end. -/
def scanRun (data : KeyboardData) (codes : List Nat) : Option KeyboardData :=
  codes.foldlM (fun data code => (keyboardIsr data code).map Prod.fst) data

inductive ModifierKind
  | shift
  | ctrl
  | alt
  deriving DecidableEq

namespace ModifierKind

def flag (data : KeyboardData) : ModifierKind → Bool
  | shift => data.shift
  | ctrl => data.ctrl
  | alt => data.alt

def includes (key : Keycode) : ModifierKind → Bool
  | shift => key == keyLShift || key == keyRShift
  | ctrl => key == keyLCtrl || key == keyRCtrl
  | alt => key == keyLAlt || key == keyRAlt

end ModifierKind

/-- A key of the keyboard: its make code, after a prefix or not. -/
structure PhysicalKey where
  extended : Bool
  makeCode : Nat
  deriving DecidableEq

def PhysicalKey.keycode (key : PhysicalKey) : Option Keycode :=
  if key.extended then scancodeExt[key.makeCode]? else scancodeStd[key.makeCode]?

/-- The tables have the key as one of the kind. -/
def ModifierKind.keys (kind : ModifierKind) (key : PhysicalKey) : Bool :=
  key.keycode.any (fun keycode => kind.includes keycode)

structure KeyPress where
  key : PhysicalKey
  released : Bool
  deriving DecidableEq

/-- What was pressed and released, in order: a prefix belongs to the byte behind it. -/
def pressesOf (previous : Nat) : List Nat → List KeyPress
  | [] => []
  | code :: rest =>
    if isPrefixCode code then pressesOf code rest
    else ⟨⟨isPrefixCode previous,code % 128⟩,isBreakCode code⟩ :: pressesOf code rest

/-- The latest press or release of one of these keys. -/
def latest (keys : PhysicalKey → Bool) (presses : List KeyPress) : Option KeyPress :=
  presses.reverse.find? (fun press => keys press.key)

/-- The key has been pressed and not been released since. -/
def Held (key : PhysicalKey) (presses : List KeyPress) : Prop :=
  latest (· == key) presses = some ⟨key,false⟩

/-- The tables hold the byte. -/
def InTables (code : Nat) : Prop := isPrefixCode code ∨ code % 128 < scancodeStd.length

/-- What the handler has to do over a sequence of bytes. -/
structure FollowsKeys (codes : List Nat) : Prop where
  tables : ∀ before code after, codes = before ++ code :: after →
    ∃ data, scanRun KeyboardState.start.data before = some data ∧
      data.extendedCode = before.getLast?.any isPrefixCode ∧ (keyboardIsr data code).isSome
  modifiers : ∀ data, scanRun KeyboardState.start.data codes = some data → ∀ kind : ModifierKind,
    kind.flag data = true ↔ ∃ key, kind.keys key ∧ Held key (pressesOf 0 codes)

theorem flag_setModifier (data : KeyboardData) (key : Keycode) (down : Bool)
    (kind : ModifierKind) :
    kind.flag (data.setModifier key down) = if kind.includes key then down else kind.flag data := by
  unfold KeyboardData.setModifier
  by_cases hctrl : key = keyLCtrl ∨ key = keyRCtrl
  · rw [if_pos hctrl]
    rcases hctrl with rfl | rfl <;> cases kind <;> rfl
  · rw [if_neg hctrl]
    by_cases hshift : key = keyLShift ∨ key = keyRShift
    · rw [if_pos hshift]
      rcases hshift with rfl | rfl <;> cases kind <;> rfl
    · rw [if_neg hshift]
      by_cases halt : key = keyLAlt ∨ key = keyRAlt
      · rw [if_pos halt]
        rcases halt with rfl | rfl <;> cases kind <;> rfl
      · rw [if_neg halt,if_neg]
        cases kind
        · simpa [ModifierKind.includes] using hshift
        · simpa [ModifierKind.includes] using hctrl
        · simpa [ModifierKind.includes] using halt

theorem flag_toggleLock (data : KeyboardData) (key : Keycode) (kind : ModifierKind) :
    kind.flag (data.toggleLock key) = kind.flag data := by
  unfold KeyboardData.toggleLock
  split
  · cases kind <;> rfl
  · split
    · cases kind <;> rfl
    · split <;> cases kind <;> rfl

theorem flag_updateKey (data : KeyboardData) (key : Keycode) (keyBreak : Bool)
    (kind : ModifierKind) :
    kind.flag (data.updateKey key keyBreak) =
      if kind.includes key then !keyBreak else kind.flag data := by
  cases keyBreak with
  | true =>
    rw [show kind.flag (data.updateKey key true) = kind.flag (data.setModifier key false) by
      cases kind <;> rfl,flag_setModifier]
    rfl
  | false =>
    rw [show kind.flag (data.updateKey key false) =
      kind.flag (({ data with keycode := key }.setModifier key true).toggleLock key) by
        cases kind <;> rfl,flag_toggleLock,flag_setModifier]
    cases kind <;> rfl

theorem scancode_lengths : scancodeStd.length = 89 ∧ scancodeExt.length = 89 := by decide

theorem isBreakCode_eq {code : Nat} (hcode : code < 256) :
    (if isBreakCode code then code - 0x80 else code) = code % 128 := by
  have hbit : isBreakCode code = decide (128 ≤ code) := by
    rw [isBreakCode,Nat.testBit_eq_decide_div_mod_eq]
    congr 1
    rw [eq_iff_iff]
    omega
  rw [hbit]
  by_cases hbreak : 128 ≤ code
  · rw [if_pos (decide_eq_true hbreak)]
    omega
  · rw [if_neg (by simpa using hbreak)]
    omega

theorem keyboardIsr_escape {code : Nat} (hescape : isPrefixCode code = true)
    (data : KeyboardData) : keyboardIsr data code = some ({ data with extendedCode := true },false) :=
  if_pos hescape

theorem keyboardIsr_key {code : Nat} (hcode : code < 256) (hescape : ¬ isPrefixCode code = true)
    (data : KeyboardData) : keyboardIsr data code =
      (PhysicalKey.keycode ⟨data.extendedCode,code % 128⟩).map
        (fun key => (data.updateKey key (isBreakCode code),true)) := by
  rw [keyboardIsr,if_neg hescape,isBreakCode_eq hcode]
  rw [show data.lookupKey (code % 128) = PhysicalKey.keycode ⟨data.extendedCode,code % 128⟩ from rfl]
  cases PhysicalKey.keycode ⟨data.extendedCode,code % 128⟩ <;> rfl

theorem isSome_getElem? {α : Type} {xs : List α} {i : Nat} : (xs[i]?).isSome ↔ i < xs.length := by
  simp

theorem PhysicalKey.keycode_isSome {key : PhysicalKey} :
    key.keycode.isSome ↔ key.makeCode < scancodeStd.length := by
  obtain ⟨hstd,hext⟩ := scancode_lengths
  rw [PhysicalKey.keycode]
  split
  · rw [isSome_getElem?,hext,hstd]
  · rw [isSome_getElem?]

theorem scanRun_append (data : KeyboardData) (before : List Nat) (code : Nat) :
    scanRun data (before ++ [code]) =
      (scanRun data before).bind (fun data => (keyboardIsr data code).map Prod.fst) := by
  rw [scanRun,List.foldlM_append]
  simp [scanRun]

theorem pressesOf_append (previous : Nat) (codes : List Nat) (code : Nat) :
    pressesOf previous (codes ++ [code]) = pressesOf previous codes ++
      (if isPrefixCode code then []
        else [⟨⟨isPrefixCode (codes.getLastD previous),code % 128⟩,isBreakCode code⟩]) := by
  induction codes generalizing previous with
  | nil => rfl
  | cons head rest ih =>
    rw [List.cons_append,pressesOf,pressesOf,ih,List.getLastD_cons]
    split <;> rfl

theorem latest_append (keys : PhysicalKey → Bool) (presses : List KeyPress) (press : KeyPress) :
    latest keys (presses ++ [press]) =
      if keys press.key then some press else latest keys presses := by
  rw [latest,List.reverse_append,List.reverse_singleton,List.singleton_append,List.find?_cons]
  cases keys press.key <;> rfl

/-- The prefix is remembered up to the next byte, and a flag is set when the latest code of its
kind is a make code. -/
structure ModifierInv (codes : List Nat) (data : KeyboardData) : Prop where
  extendedCode : data.extendedCode = codes.getLast?.any isPrefixCode
  flag : ∀ kind : ModifierKind, kind.flag data =
    (latest kind.keys (pressesOf 0 codes)).any (fun press => !press.released)

theorem ModifierInv.start : ModifierInv [] KeyboardState.start.data := by
  constructor
  · rfl
  · intro kind
    cases kind <;> rfl

theorem getLast?_any_prefix (codes : List Nat) :
    codes.getLast?.any isPrefixCode = isPrefixCode (codes.getLastD 0) := by
  rw [List.getLastD_eq_getLast?]
  cases codes.getLast? <;> rfl

theorem ModifierInv.step {codes : List Nat} {data : KeyboardData} {code : Nat}
    (h : ModifierInv codes data) (hcode : code < 256) {next : KeyboardData × Bool}
    (hisr : keyboardIsr data code = some next) : ModifierInv (codes ++ [code]) next.1 := by
  by_cases hescape : isPrefixCode code = true
  · rw [keyboardIsr_escape hescape] at hisr
    cases hisr
    constructor
    · rw [List.getLast?_append]
      simp [hescape]
    · intro kind
      rw [pressesOf_append,if_pos hescape,List.append_nil,← h.flag kind]
      cases kind <;> rfl
  · rw [keyboardIsr_key hcode hescape] at hisr
    obtain ⟨key,hkey,rfl⟩ := Option.map_eq_some_iff.mp hisr
    constructor
    · rw [List.getLast?_append]
      simp [hescape,KeyboardData.updateKey]
    · intro kind
      have hkeys : kind.keys ⟨isPrefixCode (codes.getLastD 0),code % 128⟩ = kind.includes key := by
        rw [← getLast?_any_prefix,← h.extendedCode,ModifierKind.keys,hkey]
        rfl
      rw [pressesOf_append,if_neg hescape,latest_append,hkeys,flag_updateKey,h.flag kind]
      cases kind.includes key <;> rfl

theorem scanRun_modifierInv {codes : List Nat} (hcodes : ∀ code ∈ codes, code < 256)
    {data : KeyboardData} (h : scanRun KeyboardState.start.data codes = some data) :
    ModifierInv codes data := by
  induction codes using List.reverseRecOn generalizing data with
  | nil =>
    cases h
    exact ModifierInv.start
  | append_singleton before code ih =>
    rw [scanRun_append] at h
    obtain ⟨data',hbefore,h⟩ := Option.bind_eq_some_iff.mp h
    obtain ⟨next,hisr,rfl⟩ := Option.map_eq_some_iff.mp h
    have hinv := ih (fun c hc => hcodes c (List.mem_append_left _ hc)) hbefore
    exact hinv.step (hcodes code (by simp)) hisr

theorem keyboardIsr_isSome {code : Nat} (hcode : code < 256) (data : KeyboardData) :
    (keyboardIsr data code).isSome ↔ InTables code := by
  by_cases hescape : isPrefixCode code = true
  · rw [keyboardIsr_escape hescape]
    exact iff_of_true rfl (.inl hescape)
  · rw [keyboardIsr_key hcode hescape,Option.isSome_map,PhysicalKey.keycode_isSome]
    constructor
    · exact .inr
    · exact fun h => h.resolve_left hescape

theorem scanRun_isSome {codes : List Nat} (hcodes : ∀ code ∈ codes, code < 256)
    (htables : ∀ code ∈ codes, InTables code) (data : KeyboardData) :
    ∃ last, scanRun data codes = some last := by
  induction codes using List.reverseRecOn with
  | nil => exact ⟨data,rfl⟩
  | append_singleton before code ih =>
    obtain ⟨data',hbefore⟩ := ih (fun c hc => hcodes c (List.mem_append_left _ hc))
      (fun c hc => htables c (List.mem_append_left _ hc))
    have hisr := (keyboardIsr_isSome (hcodes code (by simp)) data').mpr (htables code (by simp))
    obtain ⟨next,hnext⟩ := Option.isSome_iff_exists.mp hisr
    refine ⟨next.1,?_⟩
    rw [scanRun_append,hbefore,Option.bind_some,hnext]
    rfl

theorem latest_of_latest_kind {kind : ModifierKind} {presses : List KeyPress} {press : KeyPress}
    (h : latest kind.keys presses = some press) :
    kind.keys press.key ∧ latest (· == press.key) presses = some press := by
  induction presses using List.reverseRecOn with
  | nil => cases h
  | append_singleton before last ih =>
    rw [latest_append] at h
    rw [latest_append]
    by_cases hlast : kind.keys last.key = true
    · rw [if_pos hlast] at h
      cases h
      exact ⟨hlast,if_pos (beq_self_eq_true _)⟩
    · rw [if_neg hlast] at h
      obtain ⟨hkind,hlatest⟩ := ih h
      refine ⟨hkind,?_⟩
      rw [if_neg,hlatest]
      intro hsame
      rw [beq_iff_eq] at hsame
      exact hlast (hsame ▸ hkind)

theorem latest_kind_of_held {kind : ModifierKind} {presses : List KeyPress} {key : PhysicalKey}
    (hkind : kind.keys key = true) (h : Held key presses) :
    ∃ press, latest kind.keys presses = some press := by
  rw [← Option.isSome_iff_exists,latest,List.find?_isSome]
  obtain hmem := List.mem_of_find?_eq_some h
  exact ⟨_,hmem,hkind⟩

/-- When the latest code of the kind releases a key, no other key of the kind is held. -/
def LastReleaseLeavesNone (kind : ModifierKind) (presses : List KeyPress) : Prop :=
  ∀ released, latest kind.keys presses = some ⟨released,true⟩ →
    ∀ other, other ≠ released → kind.keys other → ¬ Held other presses

theorem flag_iff_held {kind : ModifierKind} {presses : List KeyPress} :
    ((latest kind.keys presses).any (fun press => !press.released) = true ↔
      ∃ key, kind.keys key ∧ Held key presses) ↔ LastReleaseLeavesNone kind presses := by
  constructor
  · intro hiff released hlatest other _ hkind hheld
    have hflag := hiff.mpr ⟨other,hkind,hheld⟩
    rw [hlatest] at hflag
    cases hflag
  · intro hreleased
    constructor
    · intro hflag
      cases hlatest : latest kind.keys presses with
      | none =>
        rw [hlatest] at hflag
        cases hflag
      | some press =>
        rw [hlatest,Option.any_some] at hflag
        obtain ⟨hkind,hown⟩ := latest_of_latest_kind hlatest
        refine ⟨press.key,hkind,?_⟩
        rw [Held,hown]
        obtain ⟨key,released⟩ := press
        cases released with
        | false => rfl
        | true => cases hflag
    · intro ⟨key,hkind,hheld⟩
      obtain ⟨⟨other,released⟩,hlatest⟩ := latest_kind_of_held hkind hheld
      rw [hlatest]
      cases released with
      | false => rfl
      | true =>
        exfalso
        by_cases hsame : key = other
        · subst hsame
          have hown := (latest_of_latest_kind hlatest).2
          rw [Held,hown] at hheld
          cases hheld
        · exact hreleased other hlatest key hsame hkind hheld

/-- The handler follows the keys exactly when the tables hold every byte, and no key was released
as the latest of its kind while another key of the kind is held. -/
theorem followsKeys_iff (codes : List Nat) (hcodes : ∀ code ∈ codes, code < 256) :
    FollowsKeys codes ↔ (∀ code ∈ codes, InTables code) ∧
      ∀ kind, LastReleaseLeavesNone kind (pressesOf 0 codes) := by
  constructor
  · intro h
    have htables : ∀ code ∈ codes, InTables code := by
      intro code hmem
      obtain ⟨before,after,hsplit⟩ := List.append_of_mem hmem
      obtain ⟨data,_,_,hsome⟩ := h.tables before code after hsplit
      exact (keyboardIsr_isSome (hcodes code hmem) data).mp hsome
    obtain ⟨data,hrun⟩ := scanRun_isSome hcodes htables KeyboardState.start.data
    refine ⟨htables,fun kind => flag_iff_held.mp ?_⟩
    rw [← (scanRun_modifierInv hcodes hrun).flag kind]
    exact h.modifiers data hrun kind
  · intro ⟨htables,hreleased⟩
    constructor
    · intro before code after hsplit
      have hmem : ∀ c ∈ before, c ∈ codes := fun c hc => hsplit ▸ List.mem_append_left _ hc
      have hcode : code ∈ codes := hsplit ▸ by simp
      obtain ⟨data,hrun⟩ := scanRun_isSome (fun c hc => hcodes c (hmem c hc))
        (fun c hc => htables c (hmem c hc)) KeyboardState.start.data
      have hinv := scanRun_modifierInv (fun c hc => hcodes c (hmem c hc)) hrun
      exact ⟨data,hrun,hinv.extendedCode,
        (keyboardIsr_isSome (hcodes code hcode) data).mpr (htables code hcode)⟩
    · intro data hrun kind
      rw [(scanRun_modifierInv hcodes hrun).flag kind]
      exact flag_iff_held.mpr (hreleased kind)

/-- The left shift key is pressed and released. -/
theorem followsKeys_shift : FollowsKeys [0x2a,0xaa] ↔ (∀ code ∈ [0x2a,0xaa], InTables code) ∧
    ∀ kind, LastReleaseLeavesNone kind (pressesOf 0 [0x2a,0xaa]) :=
  followsKeys_iff [0x2a,0xaa] (by decide)

/-- The right shift key is still held when the left one is released; no table holds 0x59. -/
theorem followsKeys_fails : ¬ FollowsKeys [0x2a,0x36,0xaa] ∧ ¬ FollowsKeys [0x59] := by
  constructor
  · intro h
    have hheld : Held ⟨false,0x36⟩ (pressesOf 0 [0x2a,0x36,0xaa]) := by
      unfold Held
      decide
    have hrun : scanRun KeyboardState.start.data [0x2a,0x36,0xaa] = some
        ⟨keyRShift,false,false,false,false,false,false,false⟩ := by decide
    have hflag := (h.modifiers _ hrun .shift).mpr ⟨⟨false,0x36⟩,by decide,hheld⟩
    cases hflag
  · intro h
    obtain ⟨data,_,_,hsome⟩ := h.tables [] 0x59 [] rfl
    have hin := (keyboardIsr_isSome (by decide) data).mp hsome
    rw [InTables,scancode_lengths.1] at hin
    revert hin
    decide

end Hal9000
