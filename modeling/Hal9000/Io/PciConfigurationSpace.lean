import Hal9000.Io.PciDevices

/-!
# The PCI configuration space

The configuration space of a device is read and written one aligned double word at a time; smaller
values are merged into the double word they are in and larger ones take two. `IsAddressAligned` is
a parameter: it is used with alignments that are no powers of two when the width is not one that
is supported.
-/

namespace Hal9000

structure PciRootComplex where
  startBusNumber : Nat
  endBusNumber : Nat

structure PciSystemData where
  pciExpressSupport : Bool
  pciRootComplexList : List PciRootComplex

/-- The double words of each device, in order. -/
abbrev PciConfigurationSpace := PciDeviceLocation → Nat → BitVec 32

inductive PciConfigurationStatus
  | aeOk
  | aeError
  | aeBadParameter
  | invalidParameter3
  | deviceSpaceRangeExceeded
  | deviceNotConnected
  deriving DecidableEq

def PciConfigurationSpace.setDword (space : PciConfigurationSpace) (location : PciDeviceLocation)
    (register : Nat) (value : BitVec 32) : PciConfigurationSpace :=
  fun l r => if l = location ∧ r = register / 4 then value else space l r

/-- The byte at a register. -/
def PciConfigurationSpace.byte (space : PciConfigurationSpace) (location : PciDeviceLocation)
    (register : Nat) : BitVec 8 :=
  (space location (register / 4)).extractLsb' (8 * (register % 4)) 8

section Generic

variable (isAddressAligned : Nat → Nat → Bool) (sys : PciSystemData)

def PciSystemData.findRootComplexForDevice (sys : PciSystemData) (location : PciDeviceLocation) :
    Option PciRootComplex :=
  sys.pciRootComplexList.find? (fun rootComplex =>
    decide (rootComplex.startBusNumber ≤ location.bus) &&
      decide (location.bus ≤ rootComplex.endBusNumber))

/-- The checks that both accessors make: a configuration space has 4096 bytes with PCI express and
256 bytes without. -/
def PciSystemData.checkAccess (sys : PciSystemData) (location : PciDeviceLocation)
    (register : Nat) : Except PciConfigurationStatus Unit :=
  if sys.pciExpressSupport then
    if register ≥ 4096 then .error .deviceSpaceRangeExceeded
    else if (sys.findRootComplexForDevice location).isNone then .error .deviceNotConnected
    else .ok ()
  else if register ≥ 256 then .error .deviceSpaceRangeExceeded
  else .ok ()

def pciSystemReadConfigurationSpace (location : PciDeviceLocation) (register : Nat)
    (space : PciConfigurationSpace) : Option (Except PciConfigurationStatus (BitVec 32)) := do
  assert (isAddressAligned register 4)
  match sys.checkAccess location register with
  | .error status => some (.error status)
  | .ok () => some (.ok (space location (register / 4)))

def pciSystemWriteConfigurationSpace (location : PciDeviceLocation) (register : Nat)
    (value : BitVec 32) (space : PciConfigurationSpace) :
    Option (Except PciConfigurationStatus PciConfigurationSpace) := do
  assert (isAddressAligned register 4)
  match sys.checkAccess location register with
  | .error status => some (.error status)
  | .ok () => some (.ok (space.setDword location register value))

def pciSystemReadConfigurationSpaceGeneric (location : PciDeviceLocation) (register width : Nat)
    (space : PciConfigurationSpace) : Option (Except PciConfigurationStatus (BitVec 64)) :=
  if !isAddressAligned register (width / 8) then some (.error .invalidParameter3)
  else do
    let low ← pciSystemReadConfigurationSpace isAddressAligned sys location
      (alignAddressLower register 4) space
    match low with
    | .error _ => some (.error .aeError)
    | .ok value =>
      let value := value >>> (addressOffset register 4 * 8)
      if width = 8 then some (.ok ((value &&& 0xFF#32).setWidth 64))
      else if width = 16 then some (.ok ((value &&& 0xFFFF#32).setWidth 64))
      else if width = 32 then some (.ok ((value &&& 0xFFFFFFFF#32).setWidth 64))
      else if width = 64 then do
        let high ← pciSystemReadConfigurationSpace isAddressAligned sys location
          ((register + 4) % 2 ^ 16) space
        match high with
        | .error _ => some (.error .aeError)
        | .ok valueHigh => some (.ok (valueHigh ++ value))
      else some (.error .aeBadParameter)

/-- The double word in which the bits of `mask` are replaced, `offset` bits further up. -/
def mergeBits (mask : BitVec 64) (offset : Nat) (initialValue : BitVec 32) (value : BitVec 64) :
    BitVec 32 :=
  ((initialValue &&& ~~~(mask.setWidth 32 <<< offset)).setWidth 64 |||
    ((value &&& mask) <<< offset)).setWidth 32

/-- `valueToWrite`: it stays 0 for every other width. -/
def valueToWrite (width offset : Nat) (initialValue : BitVec 32) (value : BitVec 64) : BitVec 32 :=
  if width = 8 then mergeBits 0xFF#64 offset initialValue value
  else if width = 16 then mergeBits 0xFFFF#64 offset initialValue value
  else if width = 32 ∨ width = 64 then value.setWidth 32
  else 0

def pciSystemWriteConfigurationSpaceGeneric (location : PciDeviceLocation) (register width : Nat)
    (value : BitVec 64) (space : PciConfigurationSpace) :
    Option (PciConfigurationStatus × PciConfigurationSpace) :=
  if !isAddressAligned register (width / 8) then some (.invalidParameter3,space)
  else do
    let alignedRegister := alignAddressLower register 4
    assert (decide (alignedRegister ≤ 0xFFFF))
    let offsetInRegisterBits := (register - alignedRegister) * 8
    -- for DWORD and QWORD accesses there is no need to read previous value
    let initial ← (if width < 32 then
        pciSystemReadConfigurationSpace isAddressAligned sys location alignedRegister space
      else some (.ok 0))
    match initial with
    | .error _ => some (.aeError,space)
    | .ok initialValue => do
      let lower ← pciSystemWriteConfigurationSpace isAddressAligned sys location alignedRegister
        (valueToWrite width offsetInRegisterBits initialValue value) space
      match lower with
      | .error _ => some (.aeError,space)
      | .ok space =>
        if width = 64 then do
          let upper ← pciSystemWriteConfigurationSpace isAddressAligned sys location
            ((alignedRegister + 4) % 2 ^ 16) ((value >>> 32).setWidth 32) space
          match upper with
          | .error _ => some (.aeError,space)
          | .ok space => some (.aeOk,space)
        else some (.aeOk,space)

def SupportedWidth (width : Nat) : Prop := width = 8 ∨ width = 16 ∨ width = 32 ∨ width = 64

/-- What a write has to do. -/
structure ConfigurationWriteLaw (location : PciDeviceLocation) (register width : Nat)
    (value : BitVec 64) (space : PciConfigurationSpace) : Prop where
  returns : ∃ result, pciSystemWriteConfigurationSpaceGeneric isAddressAligned sys location
    register width value space = some result
  readBack : ∀ space', SupportedWidth width →
    pciSystemWriteConfigurationSpaceGeneric isAddressAligned sys location register width value
      space = some (.aeOk,space') →
    pciSystemReadConfigurationSpaceGeneric isAddressAligned sys location register width space' =
      some (.ok ((value.setWidth width).setWidth 64))
  frame : ∀ space', SupportedWidth width →
    pciSystemWriteConfigurationSpaceGeneric isAddressAligned sys location register width value
      space = some (.aeOk,space') →
    ∀ l r, ¬ (l = location ∧ register ≤ r ∧ r < register + width / 8) →
      space'.byte l r = space.byte l r
  unchanged : ∀ status space', status ≠ .aeOk ∨ ¬ SupportedWidth width →
    pciSystemWriteConfigurationSpaceGeneric isAddressAligned sys location register width value
      space = some (status,space') →
    ∀ l r, space'.byte l r = space.byte l r

end Generic

theorem mask_eq_allOnes : 0xFF#64 = (BitVec.allOnes 8).setWidth 64 ∧
    0xFFFF#64 = (BitVec.allOnes 16).setWidth 64 := by decide

theorem getLsbD_mergeBits {n offset : Nat} (initialValue : BitVec 32)
    (value : BitVec 64) (i : Nat) :
    (mergeBits ((BitVec.allOnes n).setWidth 64) offset initialValue value).getLsbD i =
      (decide (i < 32) && if offset ≤ i ∧ i < offset + n then value.getLsbD (i - offset)
        else initialValue.getLsbD i) := by
  rw [mergeBits]
  simp only [BitVec.getLsbD_setWidth,BitVec.getLsbD_or,BitVec.getLsbD_and,BitVec.getLsbD_not,
    BitVec.getLsbD_shiftLeft,BitVec.getLsbD_allOnes]
  by_cases hi : i < 32
  · rw [decide_eq_true hi,decide_eq_true (show i < 64 by omega)]
    by_cases hlow : offset ≤ i
    · rw [decide_eq_false (show ¬ i < offset by omega),
        decide_eq_true (show i - offset < 32 by omega),
        decide_eq_true (show i - offset < 64 by omega)]
      by_cases hhigh : i < offset + n
      · rw [decide_eq_true (show i - offset < n by omega),if_pos ⟨hlow,hhigh⟩]
        simp
      · rw [decide_eq_false (show ¬ i - offset < n by omega),if_neg (fun h => hhigh h.2)]
        simp
    · rw [decide_eq_true (show i < offset by omega),if_neg (fun h => hlow h.1)]
      simp
  · rw [decide_eq_false hi]
    rfl

theorem mergeBits_shift {n offset : Nat} (hfit : offset + n ≤ 32) (initialValue : BitVec 32)
    (value : BitVec 64) :
    (mergeBits ((BitVec.allOnes n).setWidth 64) offset initialValue value >>> offset &&&
      (BitVec.allOnes n).setWidth 32).setWidth 64 = (value.setWidth n).setWidth 64 := by
  apply BitVec.eq_of_getLsbD_eq
  intro i hi
  simp only [BitVec.getLsbD_setWidth,BitVec.getLsbD_and,BitVec.getLsbD_ushiftRight,
    BitVec.getLsbD_allOnes,getLsbD_mergeBits]
  by_cases hin : i < n
  · rw [if_pos (by omega),Nat.add_sub_cancel_left,decide_eq_true hi,decide_eq_true hin,
      decide_eq_true (show i < 32 by omega),decide_eq_true (show offset + i < 32 by omega)]
    simp
  · rw [decide_eq_false hin]
    simp

theorem mergeBits_byte {n offset start : Nat} (hstart : start + 8 ≤ 32)
    (hout : start + 8 ≤ offset ∨ offset + n ≤ start) (initialValue : BitVec 32)
    (value : BitVec 64) :
    (mergeBits ((BitVec.allOnes n).setWidth 64) offset initialValue value).extractLsb' start 8 =
      initialValue.extractLsb' start 8 := by
  apply BitVec.eq_of_getLsbD_eq
  intro i hi
  rw [BitVec.getLsbD_extractLsb',BitVec.getLsbD_extractLsb',getLsbD_mergeBits,
    decide_eq_true (show start + i < 32 by omega),if_neg (by omega)]
  rfl

theorem eq_zero_of_bytes {dword : BitVec 32}
    (h : ∀ k < 4, dword.extractLsb' (8 * k) 8 = 0) : dword = 0 := by
  apply BitVec.eq_of_getLsbD_eq
  intro i hi
  have hbit := congrArg (·.getLsbD (i % 8)) (h (i / 8) (by omega))
  simp only [BitVec.getLsbD_extractLsb',decide_eq_true (Nat.mod_lt i (show 8 > 0 by decide)),
    Nat.div_add_mod,Bool.true_and] at hbit
  rw [hbit]
  simp

section Write

variable {isAddressAligned : Nat → Nat → Bool} {sys : PciSystemData}
  {location : PciDeviceLocation} {register width : Nat} {value : BitVec 64}
  {space : PciConfigurationSpace}

theorem PciSystemData.checkAccess_congr {register' : Nat} (h : register / 8 = register' / 8) :
    sys.checkAccess location register = sys.checkAccess location register' := by
  have hexpress : register ≥ 4096 ↔ register' ≥ 4096 := by omega
  have hlegacy : register ≥ 256 ↔ register' ≥ 256 := by omega
  simp only [PciSystemData.checkAccess,hexpress,hlegacy]

/-- The configuration space after a write that is not refused. -/
def PciConfigurationSpace.written (space : PciConfigurationSpace) (location : PciDeviceLocation)
    (register width : Nat) (value : BitVec 64) : PciConfigurationSpace :=
  if width = 64 then
    (space.setDword location register (value.setWidth 32)).setDword location (register + 4)
      ((value >>> 32).setWidth 32)
  else space.setDword location register
    (valueToWrite width (register % 4 * 8) (space location (register / 4)) value)

/-- Aligned to a power of two means divisible by it. -/
def AlignsPowersOfTwo (isAddressAligned : Nat → Nat → Bool) : Prop :=
  ∀ address k, isAddressAligned address (2 ^ k) = decide (address % 2 ^ k = 0)

theorem AlignsPowersOfTwo.four (halign : AlignsPowersOfTwo isAddressAligned)
    (h : register % 4 = 0) : isAddressAligned register 4 = true := by
  have hfour : isAddressAligned register (2 ^ 2) = true := by
    rw [halign]
    exact decide_eq_true h
  exact hfour

theorem readConfigurationSpace_eq (halign : AlignsPowersOfTwo isAddressAligned)
    (h : register % 4 = 0) :
    pciSystemReadConfigurationSpace isAddressAligned sys location register space =
      some ((sys.checkAccess location register).map (fun _ => space location (register / 4))) := by
  rw [pciSystemReadConfigurationSpace,halign.four h]
  cases sys.checkAccess location register <;> rfl

theorem writeConfigurationSpace_eq (halign : AlignsPowersOfTwo isAddressAligned)
    (h : register % 4 = 0) (dword : BitVec 32) :
    pciSystemWriteConfigurationSpace isAddressAligned sys location register dword space =
      some ((sys.checkAccess location register).map
        (fun _ => space.setDword location register dword)) := by
  rw [pciSystemWriteConfigurationSpace,halign.four h]
  cases sys.checkAccess location register <;> rfl

theorem setDword_congr {register' : Nat} (h : register / 4 = register' / 4)
    (space : PciConfigurationSpace) (dword : BitVec 32) :
    space.setDword location register dword = space.setDword location register' dword := by
  funext l r
  simp only [PciConfigurationSpace.setDword,h]

theorem valueToWrite_wide {offset : Nat} (h : ¬ width < 32) (initialValue : BitVec 32) :
    valueToWrite width offset 0 value = valueToWrite width offset initialValue value := by
  simp only [valueToWrite,if_neg (show ¬ width = 8 by omega),if_neg (show ¬ width = 16 by omega)]

theorem writeGeneric_refused
    (h : isAddressAligned register (width / 8) = false) :
    pciSystemWriteConfigurationSpaceGeneric isAddressAligned sys location register width value
      space = some (.invalidParameter3,space) := by
  rw [pciSystemWriteConfigurationSpaceGeneric,h]
  rfl

theorem writeGeneric_eq (halign : AlignsPowersOfTwo isAddressAligned)
    (hregister : register < 2 ^ 16) (haligned : isAddressAligned register (width / 8) = true) :
    pciSystemWriteConfigurationSpaceGeneric isAddressAligned sys location register width value
      space = some (match sys.checkAccess location register with
        | .error _ => (.aeError,space)
        | .ok () => (.aeOk,space.written location register width value)) := by
  have hlower : alignAddressLower register 4 = register / 4 * 4 := rfl
  have hdword : register / 4 * 4 / 4 = register / 4 := Nat.mul_div_cancel _ (by decide)
  have hoffset : register - register / 4 * 4 = register % 4 := by omega
  rw [pciSystemWriteConfigurationSpaceGeneric,haligned,hlower]
  simp only [decide_eq_true (show register / 4 * 4 ≤ 0xFFFF by omega),hoffset,Bool.not_true,
    Bool.false_eq_true,if_false,assert_true,Option.bind_eq_bind,Option.bind_some,readConfigurationSpace_eq halign (Nat.mul_mod_left _ _),
    writeConfigurationSpace_eq halign (Nat.mul_mod_left _ _),hdword,
    PciSystemData.checkAccess_congr (show register / 4 * 4 / 8 = register / 8 by omega)]
  cases hcheck : sys.checkAccess location register with
  | error status =>
    by_cases hnarrow : width < 32
    · simp [hnarrow,Except.map]
    · simp [hnarrow,Except.map]
  | ok =>
    have hinitial : ∀ dword : BitVec 32,
        space.setDword location (register / 4 * 4) dword = space.setDword location register dword :=
      fun dword => setDword_congr hdword space dword
    by_cases hwide : width = 64
    · have height : register % 8 = 0 := by
        have h8 := halign register 3
        rw [hwide] at haligned
        rw [show (2 : Nat) ^ 3 = 64 / 8 from rfl,haligned] at h8
        exact of_decide_eq_true h8.symm
      have hupper : (register / 4 * 4 + 4) % 2 ^ 16 = register + 4 := by omega
      simp only [hwide,hupper,hinitial,writeConfigurationSpace_eq halign
          (show (register + 4) % 4 = 0 by omega),
        PciSystemData.checkAccess_congr (show (register + 4) / 8 = register / 8 by omega),hcheck,
        Except.map,PciConfigurationSpace.written]
      rfl
    · by_cases hnarrow : width < 32
      · simp only [hnarrow,hwide,hinitial,Except.map,PciConfigurationSpace.written,if_true,
          if_false,Option.bind_some]
      · simp only [hnarrow,hwide,hinitial,Except.map,PciConfigurationSpace.written,if_false,
          Option.bind_some,valueToWrite_wide hnarrow (space location (register / 4))]

theorem AlignsPowersOfTwo.mod_width (halign : AlignsPowersOfTwo isAddressAligned)
    (hwidth : SupportedWidth width) (haligned : isAddressAligned register (width / 8) = true) :
    register % (width / 8) = 0 := by
  have hpow : ∃ k, width / 8 = 2 ^ k := by
    rcases hwidth with rfl | rfl | rfl | rfl
    · exact ⟨0,rfl⟩
    · exact ⟨1,rfl⟩
    · exact ⟨2,rfl⟩
    · exact ⟨3,rfl⟩
  obtain ⟨k,hk⟩ := hpow
  rw [hk,halign] at haligned
  rw [hk]
  exact of_decide_eq_true haligned

theorem setDword_same (dword : BitVec 32) :
    space.setDword location register dword location (register / 4) = dword :=
  if_pos ⟨rfl,rfl⟩

theorem byte_setDword (dword : BitVec 32) (l : PciDeviceLocation) (r : Nat) :
    (space.setDword location register dword).byte l r =
      if l = location ∧ r / 4 = register / 4 then dword.extractLsb' (8 * (r % 4)) 8
      else space.byte l r := by
  simp only [PciConfigurationSpace.byte,PciConfigurationSpace.setDword]
  split <;> rfl

theorem readGeneric_eq (halign : AlignsPowersOfTwo isAddressAligned)
    (haligned : isAddressAligned register (width / 8) = true)
    (haccess : sys.checkAccess location register = .ok ()) :
    pciSystemReadConfigurationSpaceGeneric isAddressAligned sys location register width space =
      (let value := space location (register / 4) >>> (register % 4 * 8)
      if width = 8 then some (.ok ((value &&& 0xFF#32).setWidth 64))
      else if width = 16 then some (.ok ((value &&& 0xFFFF#32).setWidth 64))
      else if width = 32 then some (.ok ((value &&& 0xFFFFFFFF#32).setWidth 64))
      else if width = 64 then do
        let high ← pciSystemReadConfigurationSpace isAddressAligned sys location
          ((register + 4) % 2 ^ 16) space
        match high with
        | .error _ => some (.error .aeError)
        | .ok valueHigh => some (.ok (valueHigh ++ value))
      else some (.error .aeBadParameter)) := by
  have hlower : alignAddressLower register 4 = register / 4 * 4 := rfl
  rw [pciSystemReadConfigurationSpaceGeneric,haligned,hlower,
    readConfigurationSpace_eq halign (Nat.mul_mod_left _ _),
    PciSystemData.checkAccess_congr (show register / 4 * 4 / 8 = register / 8 by omega),haccess,
    Nat.mul_div_cancel _ (show 0 < 4 by decide)]
  rfl

theorem readGeneric_written (halign : AlignsPowersOfTwo isAddressAligned)
    (hregister : register < 2 ^ 16) (hwidth : SupportedWidth width)
    (haligned : isAddressAligned register (width / 8) = true)
    (haccess : sys.checkAccess location register = .ok ()) :
    pciSystemReadConfigurationSpaceGeneric isAddressAligned sys location register width
      (space.written location register width value) =
        some (.ok ((value.setWidth width).setWidth 64)) := by
  have hmod := halign.mod_width hwidth haligned
  rw [readGeneric_eq halign haligned haccess]
  rcases hwidth with rfl | rfl | rfl | rfl
  · have hmask : 0xFF#32 = (BitVec.allOnes 8).setWidth 32 := by decide
    have hread := mergeBits_shift (show register % 4 * 8 + 8 ≤ 32 by omega)
      (space location (register / 4)) value
    rw [← mask_eq_allOnes.1,← hmask] at hread
    simp only [PciConfigurationSpace.written,if_true,if_neg (show ¬ 8 = 64 by decide),
      setDword_same,valueToWrite]
    rw [hread]
  · have hmask : 0xFFFF#32 = (BitVec.allOnes 16).setWidth 32 := by decide
    have hread := mergeBits_shift (show register % 4 * 8 + 16 ≤ 32 by omega)
      (space location (register / 4)) value
    rw [← mask_eq_allOnes.2,← hmask] at hread
    simp only [PciConfigurationSpace.written,if_true,if_neg (show ¬ 16 = 64 by decide),
      if_neg (show ¬ 16 = 8 by decide),setDword_same,valueToWrite]
    rw [hread]
  · have hzero : register % 4 * 8 = 0 := by omega
    have hmask : 0xFFFFFFFF#32 = BitVec.allOnes 32 := by decide
    simp only [PciConfigurationSpace.written,hzero,hmask,if_neg (show ¬ 32 = 64 by decide),
      setDword_same,valueToWrite,if_neg (show ¬ 32 = 8 by decide),
      if_neg (show ¬ 32 = 16 by decide),true_or,if_true,BitVec.ushiftRight_zero,
      BitVec.and_allOnes]
  · have hzero : register % 4 * 8 = 0 := by omega
    have hhigh : (register + 4) % 2 ^ 16 = register + 4 := Nat.mod_eq_of_lt (by omega)
    have hlow : (space.setDword location register (value.setWidth 32)).setDword location
        (register + 4) ((value >>> 32).setWidth 32) location (register / 4) =
          value.setWidth 32 := by
      rw [PciConfigurationSpace.setDword,if_neg (fun h => by omega)]
      exact setDword_same _
    have hjoin : ((value >>> 32).setWidth 32 ++ value.setWidth 32 : BitVec 64) = value := by
      apply BitVec.eq_of_getLsbD_eq
      intro i hi
      rw [BitVec.getLsbD_append,BitVec.getLsbD_setWidth,BitVec.getLsbD_setWidth,
        BitVec.getLsbD_ushiftRight]
      by_cases hi32 : i < 32
      · simp [hi32]
      · simp [hi32,show i - 32 < 32 by omega,show 32 + (i - 32) = i by omega]
    simp only [PciConfigurationSpace.written,hzero,hhigh,if_true,
      if_neg (show ¬ 64 = 8 by decide),if_neg (show ¬ 64 = 16 by decide),
      if_neg (show ¬ 64 = 32 by decide),hlow,BitVec.ushiftRight_zero,
      readConfigurationSpace_eq halign (show (register + 4) % 4 = 0 by omega),
      PciSystemData.checkAccess_congr (show (register + 4) / 8 = register / 8 by omega),haccess,
      Except.map,setDword_same,Option.bind_eq_bind,Option.bind_some,hjoin,BitVec.setWidth_eq]

theorem written_byte (hwidth : SupportedWidth width)
    (hmod : register % (width / 8) = 0) {l : PciDeviceLocation} {r : Nat}
    (hout : ¬ (l = location ∧ register ≤ r ∧ r < register + width / 8)) :
    (space.written location register width value).byte l r = space.byte l r := by
  rcases hwidth with rfl | rfl | rfl | rfl
  · simp only [PciConfigurationSpace.written,if_neg (show ¬ 8 = 64 by decide),byte_setDword]
    split
    · rename_i hin
      obtain ⟨rfl,hin⟩ := hin
      have hout' : ¬ (register ≤ r ∧ r < register + 8 / 8) := fun h => hout ⟨rfl,h⟩
      rw [valueToWrite,if_pos rfl,mask_eq_allOnes.1,mergeBits_byte (by omega) (by omega),
        PciConfigurationSpace.byte,hin]
    · rfl
  · simp only [PciConfigurationSpace.written,if_neg (show ¬ 16 = 64 by decide),byte_setDword]
    split
    · rename_i hin
      obtain ⟨rfl,hin⟩ := hin
      have hout' : ¬ (register ≤ r ∧ r < register + 16 / 8) := fun h => hout ⟨rfl,h⟩
      rw [valueToWrite,if_neg (by decide),if_pos rfl,mask_eq_allOnes.2,
        mergeBits_byte (by omega) (by omega),
        PciConfigurationSpace.byte,hin]
    · rfl
  · simp only [PciConfigurationSpace.written,if_neg (show ¬ 32 = 64 by decide),byte_setDword]
    rw [if_neg (fun hin => hout ⟨hin.1,by omega⟩)]
  · simp only [PciConfigurationSpace.written,if_true,byte_setDword]
    rw [if_neg (fun hin => hout ⟨hin.1,by omega⟩),if_neg (fun hin => hout ⟨hin.1,by omega⟩)]

theorem written_unsupported (hwidth : ¬ SupportedWidth width) :
    space.written location register width value = space.setDword location register 0 := by
  simp only [SupportedWidth,not_or] at hwidth
  obtain ⟨h8,h16,h32,h64⟩ := hwidth
  simp only [PciConfigurationSpace.written,valueToWrite,h8,h16,h32,h64,if_false,or_self]

theorem configurationWriteLaw_of_refused {status : PciConfigurationStatus}
    (hwrite : pciSystemWriteConfigurationSpaceGeneric isAddressAligned sys location register width
      value space = some (status,space)) (hstatus : status ≠ .aeOk) :
    ConfigurationWriteLaw isAddressAligned sys location register width value space := by
  constructor
  · exact ⟨_,hwrite⟩
  · intro space' _ h
    rw [hwrite] at h
    cases h
    exact absurd rfl hstatus
  · intro space' _ h
    rw [hwrite] at h
    cases h
    exact absurd rfl hstatus
  · intro _ space' _ h l r
    rw [hwrite] at h
    cases h
    rfl

/-- A write is as it has to be exactly when its width is one of the four, or it is refused, or
the double word it clears is 0. -/
theorem configurationWriteLaw_iff (isAddressAligned : Nat → Nat → Bool) (sys : PciSystemData)
    (location : PciDeviceLocation) (register width : Nat) (value : BitVec 64)
    (space : PciConfigurationSpace) (halign : AlignsPowersOfTwo isAddressAligned)
    (hregister : register < 2 ^ 16) :
    ConfigurationWriteLaw isAddressAligned sys location register width value space ↔
      SupportedWidth width ∨ isAddressAligned register (width / 8) = false ∨
      sys.checkAccess location register ≠ .ok () ∨ space location (register / 4) = 0 := by
  cases haligned : isAddressAligned register (width / 8) with
  | false =>
    have hwrite := @writeGeneric_refused isAddressAligned sys location register width value space
      haligned
    refine iff_of_true (configurationWriteLaw_of_refused hwrite (by decide)) (.inr (.inl rfl))
  | true =>
    have hwrite := @writeGeneric_eq isAddressAligned sys location register width value space
      halign hregister haligned
    cases haccess : sys.checkAccess location register with
    | error status =>
      rw [haccess] at hwrite
      refine iff_of_true (configurationWriteLaw_of_refused hwrite (by decide)) ?_
      exact .inr (.inr (.inl (by simp)))
    | ok =>
      rw [haccess] at hwrite
      by_cases hwidth : SupportedWidth width
      · refine iff_of_true ⟨⟨_,hwrite⟩,?_,?_,?_⟩ (.inl hwidth)
        · intro space' _ h
          rw [hwrite] at h
          cases h
          exact readGeneric_written halign hregister hwidth haligned haccess
        · intro space' _ h l r hout
          rw [hwrite] at h
          cases h
          exact written_byte hwidth (halign.mod_width hwidth haligned) hout
        · intro status space' hstatus h
          rw [hwrite] at h
          cases h
          simp [hwidth] at hstatus
      · rw [written_unsupported hwidth] at hwrite
        constructor
        · intro hlaw
          refine .inr (.inr (.inr (eq_zero_of_bytes (fun k hk => ?_))))
          have hbyte := hlaw.unchanged _ _ (.inr hwidth) hwrite location (register / 4 * 4 + k)
          have hdiv : (register / 4 * 4 + k) / 4 = register / 4 := by omega
          have hmod : (register / 4 * 4 + k) % 4 = k := by omega
          rw [byte_setDword,if_pos ⟨rfl,hdiv⟩,PciConfigurationSpace.byte,hdiv,hmod] at hbyte
          rw [← hbyte]
          simp
        · intro hcond
          have hzero : space location (register / 4) = 0 := by simpa [hwidth] using hcond
          refine ⟨⟨_,hwrite⟩,fun _ h => absurd h hwidth,fun _ h => absurd h hwidth,?_⟩
          intro status space' _ h l r
          rw [hwrite] at h
          cases h
          rw [byte_setDword]
          split
          · rename_i hin
            rw [PciConfigurationSpace.byte,hin.1,hin.2,hzero]
          · rfl

/-- A machine with legacy PCI. -/
def exampleLegacyPci : PciSystemData := ⟨false,[]⟩

/-- Alignment is tested with a mask, which for the alignment 0 has all 64 bits. -/
def exampleIsAddressAligned (address alignment : Nat) : Bool :=
  decide (address &&& (if alignment = 0 then 2 ^ 64 - 1 else alignment - 1) = 0)

theorem exampleIsAddressAligned_powers : AlignsPowersOfTwo exampleIsAddressAligned := by
  intro address k
  rw [exampleIsAddressAligned,if_neg (Nat.two_pow_pos k).ne',Nat.and_two_pow_sub_one_eq_mod]

/-- The command register of the device at (0.2.0) is written, the double word holds 0x00100000. -/
theorem configurationWriteLaw_iff_word :
    ConfigurationWriteLaw exampleIsAddressAligned exampleLegacyPci ⟨0,2,0⟩ 4 16 0x0007#64
        (fun _ _ => 0x00100000#32) ↔
      SupportedWidth 16 ∨ exampleIsAddressAligned 4 (16 / 8) = false ∨
      exampleLegacyPci.checkAccess ⟨0,2,0⟩ 4 ≠ .ok () ∨ (0x00100000#32 : BitVec 32) = 0 :=
  configurationWriteLaw_iff exampleIsAddressAligned exampleLegacyPci ⟨0,2,0⟩ 4 16 0x0007#64
    (fun _ _ => 0x00100000#32) exampleIsAddressAligned_powers (by decide)

/-- A write of 12 bits succeeds and clears the whole double word. -/
theorem configurationWriteLaw_width_12 :
    ¬ ConfigurationWriteLaw exampleIsAddressAligned exampleLegacyPci ⟨0,2,0⟩ 4 12 0x0007#64
      (fun _ _ => 0x00100000#32) := by
  have hwidth : ¬ SupportedWidth 12 := by
    simp [SupportedWidth]
  have hwrite := @writeGeneric_eq exampleIsAddressAligned exampleLegacyPci ⟨0,2,0⟩ 4 12 0x0007#64
    (fun _ _ => 0x00100000#32) exampleIsAddressAligned_powers (by decide) (by decide)
  rw [written_unsupported hwidth] at hwrite
  intro hlaw
  have hbyte := hlaw.unchanged _ _ (.inr hwidth) hwrite ⟨0,2,0⟩ 6
  rw [byte_setDword,if_pos ⟨rfl,rfl⟩] at hbyte
  revert hbyte
  decide

end Write

end Hal9000
