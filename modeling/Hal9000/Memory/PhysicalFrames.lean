import Hal9000.Framework.TransitionSystem
import Hal9000.Memory.ReservationSpace

/-!
# The bitmap of physical frames

`PmmInitSystem` marks every frame reserved and then releases the usable entries of the
firmware's memory map. The base of an entry is rounded up to a page and its length rounded
down, each on its own, so the last frame released may stick out of the entry.
-/

namespace Hal9000

inductive MemoryMapType
  | usableRam
  | other (type : Nat)
  deriving DecidableEq

structure Int15MemoryMapEntry where
  baseAddress : Nat
  length : Nat
  type : MemoryMapType
  /-- `MEMORY_MAP_ENTRY_EA_VALID_ENTRY` in the extended attributes. -/
  validEntry : Bool
  base_lt : baseAddress < qwordModulus
  length_lt : length < qwordModulus

structure PmmData where
  highestPhysicalAddressAvailable : Nat
  highestPhysicalAddressPresent : Nat
  physicalMemorySize : Nat
  allocationBitmap : Bitmap

inductive PmmStatus
  | invalidParameter1
  | invalidParameter3
  deriving DecidableEq

def mbSize : Nat := 2 ^ 20

/-- The first index from `startIndex` on of as many consecutive clear bits. -/
def bitmapScanFrom (bitmap : Bitmap) (startIndex consecutiveBits : Nat) : Option Nat :=
  (List.range bitmap.bitCount).find? fun index => decide (startIndex ≤ index) &&
    decide (index + consecutiveBits ≤ bitmap.bitCount) &&
    (List.range consecutiveBits).all fun offset => !bitmap.bits (index + offset)

/-- The bits found are set; `none` is `MAX_DWORD`. -/
def bitmapScanFromAndFlip (bitmap : Bitmap) (startIndex consecutiveBits : Nat) :
    Option (Nat × Bitmap) :=
  (bitmapScanFrom bitmap startIndex consecutiveBits).map fun index =>
    (index, bitmapSetBits bitmap index consecutiveBits)

/-- The address returned, zero for `NULL`, and the bitmap after the call. -/
def pmmReserveMemoryEx (bitmap : Bitmap) (noOfFrames minPhysAddr : Nat) : Nat × Bitmap :=
  if noOfFrames = 0 then (0, bitmap)
  else if ¬ isAddressAligned minPhysAddr pageSize then (0, bitmap)
  else if maxDword < minPhysAddr / pageSize then (0, bitmap)
  else match bitmapScanFromAndFlip bitmap (minPhysAddr / pageSize) noOfFrames with
    | none => (0, bitmap)
    | some (index, bitmap) => (index * pageSize, bitmap)

def pmmReserveMemory (bitmap : Bitmap) (noOfFrames : Nat) : Nat × Bitmap :=
  pmmReserveMemoryEx bitmap noOfFrames 0

def pmmReleaseMemory (bitmap : Bitmap) (physicalAddr noOfFrames : Nat) : Option Bitmap := do
  assert (isAddressAligned physicalAddr pageSize)
  assert (physicalAddr / pageSize ≤ maxDword)
  return bitmapClearBits bitmap (physicalAddr / pageSize) noOfFrames

/-- The end of an entry, as the 64-bit sum. -/
def Int15MemoryMapEntry.endAddress (entry : Int15MemoryMapEntry) : Nat :=
  ptrOffset entry.baseAddress entry.length

/-- `AvailableSystemMemory`, `HighestPresentPhysicalAddress` and
`HighestAvailablePhysicalAddress`. -/
def pmmDetermineMemoryLimits (memoryMap : List Int15MemoryMapEntry) : Nat × Nat × Nat :=
  memoryMap.foldl (fun (size, present, available) entry =>
    let present := if present < entry.endAddress then entry.endAddress else present
    if !entry.validEntry then (size, present, available)
    else if entry.type ≠ .usableRam then (size, present, available)
    else ((size + entry.length) % qwordModulus, present,
      if available < entry.endAddress then entry.endAddress else available)) (0, 0, 0)

/-- One round of the loop that releases the usable entries. -/
def releaseEntry (bitmap : Bitmap) (entry : Int15MemoryMapEntry) : Option Bitmap :=
  if !entry.validEntry then some bitmap
  else if entry.type ≠ .usableRam then some bitmap
  else if entry.baseAddress < 1 * mbSize then some bitmap
  else do
    let physAddr := alignAddressUpper entry.baseAddress pageSize
    let noOfFrames := entry.length / pageSize
    assert (noOfFrames ≤ maxDword)
    pmmReleaseMemory bitmap physAddr noOfFrames

/-- The bitmap and the size of its buffer. -/
def pmmInitializeAllocationBitmap (currentVirtualAddress highestMemoryAddress : Nat)
    (memoryEntries : List Int15MemoryMapEntry) : Option (Bitmap × Nat) := do
  assert (currentVirtualAddress != 0)
  assert (highestMemoryAddress != 0)
  let noOfPhysicalFrames := highestMemoryAddress / pageSize
  assert (noOfPhysicalFrames ≤ maxDword)
  let bitmap := bitmapInit (bitmapPreinit noOfPhysicalFrames) currentVirtualAddress
  let bitmap := (pmmReserveMemory bitmap bitmap.bitCount).2
  let bitmap ← memoryEntries.foldlM releaseEntry bitmap
  return (bitmap, bitmap.bufferSize)

/-- On success the memory manager's data and `SizeReserved`. -/
def pmmInitSystem (baseAddress : Nat) (memoryEntries : List Int15MemoryMapEntry) :
    Option (Except PmmStatus (PmmData × Nat)) :=
  if baseAddress = 0 then some (.error .invalidParameter1)
  else if memoryEntries.length = 0 then some (.error .invalidParameter3)
  else do
    let limits := pmmDetermineMemoryLimits memoryEntries
    let (bitmap, sizeReserved) ← pmmInitializeAllocationBitmap baseAddress limits.2.1 memoryEntries
    return .ok ({
      highestPhysicalAddressAvailable := limits.2.2
      highestPhysicalAddressPresent := limits.2.1
      physicalMemorySize := limits.1
      allocationBitmap := bitmap }, alignAddressUpper sizeReserved pageSize)

/-- The bitmap describes the frame and shows it as free. -/
def Bitmap.IsFree (bitmap : Bitmap) (frame : Nat) : Prop :=
  frame < bitmap.bitCount ∧ bitmap.bits frame = false

namespace Int15MemoryMapEntry

/-- A valid entry of usable memory. -/
def Usable (entry : Int15MemoryMapEntry) : Prop :=
  entry.validEntry = true ∧ entry.type = .usableRam

/-- Every byte of the frame is in the entry. -/
def Contains (entry : Int15MemoryMapEntry) (frame : Nat) : Prop :=
  entry.baseAddress ≤ frame * pageSize ∧
    frame * pageSize + pageSize ≤ entry.baseAddress + entry.length

/-- The frame the loop starts to release at. -/
def firstFrame (entry : Int15MemoryMapEntry) : Nat :=
  alignAddressUpper entry.baseAddress pageSize / pageSize

/-- The loop releases the frame for the entry. -/
def Releases (entry : Int15MemoryMapEntry) (frame : Nat) : Prop :=
  entry.Usable ∧ mbSize ≤ entry.baseAddress ∧ entry.firstFrame ≤ frame ∧
    frame < entry.firstFrame + entry.length / pageSize

end Int15MemoryMapEntry

/-- The frame lies above 1 MB and in a usable entry. -/
def UsableFrame (memoryMap : List Int15MemoryMapEntry) (frame : Nat) : Prop :=
  mbSize ≤ frame * pageSize ∧ ∃ entry ∈ memoryMap, entry.Usable ∧ entry.Contains frame

section Scan

variable {bitmap bitmap' : Bitmap}

theorem bitmapScanFrom_some {startIndex count index : Nat}
    (h : bitmapScanFrom bitmap startIndex count = some index) :
    index + count ≤ bitmap.bitCount ∧
      ∀ offset < count, bitmap.bits (index + offset) = false := by
  have hfound := List.find?_some h
  simp only [Bool.and_eq_true,decide_eq_true_eq,List.all_eq_true,List.mem_range,
    Bool.not_eq_true'] at hfound
  exact ⟨hfound.1.2,hfound.2⟩

theorem pmmReserveMemory_cases {noOfFrames pa : Nat}
    (h : pmmReserveMemory bitmap noOfFrames = (pa,bitmap')) :
    pa = 0 ∧ bitmap' = bitmap ∨ ∃ index, bitmapScanFrom bitmap 0 noOfFrames = some index ∧
      pa = index * pageSize ∧ bitmap' = bitmapSetBits bitmap index noOfFrames := by
  rw [pmmReserveMemory,pmmReserveMemoryEx] at h
  split at h
  · exact Or.inl ⟨(Prod.mk.inj h).1.symm,(Prod.mk.inj h).2.symm⟩
  · split at h
    · exact Or.inl ⟨(Prod.mk.inj h).1.symm,(Prod.mk.inj h).2.symm⟩
    · split at h
      · exact Or.inl ⟨(Prod.mk.inj h).1.symm,(Prod.mk.inj h).2.symm⟩
      · split at h
        · exact Or.inl ⟨(Prod.mk.inj h).1.symm,(Prod.mk.inj h).2.symm⟩
        · rename_i index flipped hscan
          obtain ⟨found,hfound,heq⟩ := Option.map_eq_some_iff.mp hscan
          obtain ⟨rfl,rfl⟩ := Prod.mk.inj heq
          obtain ⟨rfl,rfl⟩ := Prod.mk.inj h
          exact Or.inr ⟨found,hfound,rfl,rfl⟩

theorem pmmReserveMemoryEx_spec {noOfFrames minPhysAddr pa : Nat}
    (h : pmmReserveMemoryEx bitmap noOfFrames minPhysAddr = (pa,bitmap')) :
    bitmap'.bitCount = bitmap.bitCount ∧
      (∀ frame, bitmap'.IsFree frame → bitmap.IsFree frame) ∧
      (pa ≠ 0 → ∀ offset < noOfFrames, bitmap.IsFree (pa / pageSize + offset)) := by
  have hsame (hnull : (0,bitmap) = (pa,bitmap')) : bitmap'.bitCount = bitmap.bitCount ∧
      (∀ frame, bitmap'.IsFree frame → bitmap.IsFree frame) ∧
      (pa ≠ 0 → ∀ offset < noOfFrames, bitmap.IsFree (pa / pageSize + offset)) := by
    obtain ⟨rfl,rfl⟩ := Prod.mk.inj hnull
    exact ⟨rfl,fun _ => id,fun hne => absurd rfl hne⟩
  rw [pmmReserveMemoryEx] at h
  split at h
  · exact hsame h
  · split at h
    · exact hsame h
    · split at h
      · exact hsame h
      · split at h
        · exact hsame h
        · rename_i index flipped hscan
          obtain ⟨found,hfound,heq⟩ := Option.map_eq_some_iff.mp hscan
          obtain ⟨rfl,rfl⟩ := Prod.mk.inj heq
          obtain ⟨rfl,rfl⟩ := Prod.mk.inj h
          have hspec := bitmapScanFrom_some hfound
          refine ⟨rfl,?_,?_⟩
          · intro frame hfree
            have hclear := hfree.2
            simp only [bitmapSetBits,Bool.or_eq_false_iff] at hclear
            exact ⟨hfree.1,hclear.2⟩
          · intro _ offset hoffset
            rw [Nat.mul_div_cancel _ (by decide)]
            exact ⟨by omega,hspec.2 offset hoffset⟩

end Scan

section Initialization

variable {bitmap bitmap' : Bitmap}

private theorem reserve_all_bits {noOfFrames : Nat} (hcount : bitmap.bitCount = noOfFrames)
    (hclear : ∀ frame, bitmap.bits frame = false) :
    (pmmReserveMemory bitmap noOfFrames).2.bitCount = noOfFrames ∧
      ∀ frame < noOfFrames, (pmmReserveMemory bitmap noOfFrames).2.bits frame = true := by
  rw [pmmReserveMemory,pmmReserveMemoryEx]
  split
  · rename_i hzero
    exact ⟨hcount,by omega⟩
  · rename_i hne
    have hscan : bitmapScanFrom bitmap (0 / pageSize) noOfFrames = some 0 := by
      rw [bitmapScanFrom,hcount,← Nat.succ_pred_eq_of_ne_zero hne,Nat.succ_eq_add_one,
        List.range_succ_eq_map]
      apply List.find?_cons_of_pos
      simp [hclear]
    simp only [isAddressAligned,Nat.zero_mod,beq_self_eq_true,not_true_eq_false,if_false,
      Nat.zero_div,Nat.not_lt_zero,bitmapScanFromAndFlip]
    rw [Nat.zero_div] at hscan
    rw [hscan]
    refine ⟨hcount,?_⟩
    intro frame hframe
    simp [bitmapSetBits,hframe]

private theorem releaseEntry_bits {entry : Int15MemoryMapEntry}
    (h : releaseEntry bitmap entry = some bitmap') :
    bitmap'.bitCount = bitmap.bitCount ∧ ∀ frame, bitmap'.bits frame = false ↔
      bitmap.bits frame = false ∨ entry.Releases frame := by
  have hskip (heq : some bitmap = some bitmap') (hnot : ∀ frame, ¬ entry.Releases frame) :
      bitmap'.bitCount = bitmap.bitCount ∧ ∀ frame, bitmap'.bits frame = false ↔
        bitmap.bits frame = false ∨ entry.Releases frame := by
    obtain rfl := Option.some.inj heq
    exact ⟨rfl,fun frame => by simp [hnot frame]⟩
  rw [releaseEntry] at h
  split at h
  · rename_i hvalid
    apply hskip h
    intro frame hreleases
    simp [hreleases.1.1] at hvalid
  · rename_i hvalid
    split at h
    · rename_i htype
      apply hskip h
      intro frame hreleases
      exact htype hreleases.1.2
    · rename_i htype
      split at h
      · rename_i hlow
        apply hskip h
        intro frame hreleases
        have habove := hreleases.2.1
        omega
      · rename_i hlow
        simp only [pmmReleaseMemory,Option.bind_eq_bind,Option.bind_eq_some_iff] at h
        obtain ⟨_,_,_,_,_,_,h⟩ := h
        obtain rfl := Option.some.inj h
        refine ⟨rfl,?_⟩
        intro frame
        have husable : entry.Usable := ⟨by simpa using hvalid,not_not.mp htype⟩
        have hhigh : mbSize ≤ entry.baseAddress := by omega
        simp only [bitmapClearBits,Bool.and_eq_false_iff,Bool.not_eq_false',decide_eq_true_eq,
          Int15MemoryMapEntry.Releases,Int15MemoryMapEntry.firstFrame,husable,hhigh,true_and]
        exact or_comm

private theorem releaseEntries_bits {memoryMap : List Int15MemoryMapEntry}
    (h : memoryMap.foldlM releaseEntry bitmap = some bitmap') :
    bitmap'.bitCount = bitmap.bitCount ∧ ∀ frame, bitmap'.bits frame = false ↔
      bitmap.bits frame = false ∨ ∃ entry ∈ memoryMap, entry.Releases frame := by
  induction memoryMap generalizing bitmap with
  | nil =>
    obtain rfl := Option.some.inj h
    simp
  | cons entry rest ih =>
    rw [List.foldlM_cons] at h
    obtain ⟨middle,hentry,hrest⟩ := Option.bind_eq_some_iff.mp h
    have hfirst := releaseEntry_bits hentry
    have hlater := ih hrest
    refine ⟨hlater.1.trans hfirst.1,?_⟩
    intro frame
    rw [hlater.2 frame,hfirst.2 frame]
    simp [or_assoc]

/-- The frames that the allocation bitmap describes. -/
def describedFrames (memoryMap : List Int15MemoryMapEntry) : Nat :=
  (pmmDetermineMemoryLimits memoryMap).2.1 / pageSize

theorem pmmInitSystem_free {baseAddress : Nat} {memoryMap : List Int15MemoryMapEntry}
    {pmmData : PmmData} {sizeReserved : Nat}
    (h : pmmInitSystem baseAddress memoryMap = some (.ok (pmmData,sizeReserved))) (frame : Nat) :
    pmmData.allocationBitmap.IsFree frame ↔ frame < describedFrames memoryMap ∧
      ∃ entry ∈ memoryMap, entry.Releases frame := by
  rw [describedFrames]
  rw [pmmInitSystem] at h
  split at h
  · cases h
  · split at h
    · cases h
    · simp only [pmmInitializeAllocationBitmap,Option.bind_eq_bind,Option.bind_eq_some_iff] at h
      obtain ⟨_,⟨_,_,_,_,_,_,released,hreleased,hresult⟩,h⟩ := h
      obtain rfl := Option.some.inj hresult
      obtain ⟨rfl,_⟩ := Prod.mk.inj (Except.ok.inj (Option.some.inj h))
      have hbits := releaseEntries_bits hreleased
      generalize (pmmDetermineMemoryLimits memoryMap).2.1 / pageSize = n at hbits ⊢
      have hall : (pmmReserveMemory (bitmapInit (bitmapPreinit n) baseAddress) n).2.bitCount = n ∧
          ∀ frame < n,
            (pmmReserveMemory (bitmapInit (bitmapPreinit n) baseAddress) n).2.bits frame = true :=
        reserve_all_bits rfl fun _ => rfl
      have hcount : released.bitCount = n := hbits.1.trans hall.1
      unfold Bitmap.IsFree
      simp only [hcount,hbits.2 frame]
      constructor
      · rintro ⟨hframe,hclear | hreleases⟩
        · have hset := hall.2 frame hframe
          rw [show (bitmapInit (bitmapPreinit n) baseAddress).bitCount = n from rfl,hset] at hclear
          cases hclear
        · exact ⟨hframe,hreleases⟩
      · rintro ⟨hframe,hreleases⟩
        exact ⟨hframe,Or.inr hreleases⟩

end Initialization

def Int15MemoryMapEntry.lastFrame (entry : Int15MemoryMapEntry) : Nat :=
  entry.firstFrame + entry.length / pageSize - 1

/-- What rounding the base up skips is made up for by what rounding the length down leaves
out, or the last frame is not described by the bitmap, or it is in another usable entry. And
rounding the base up does not wrap. -/
def ReleasesInside (memoryMap : List Int15MemoryMapEntry) (entry : Int15MemoryMapEntry) : Prop :=
  entry.Usable → mbSize ≤ entry.baseAddress → pageSize ≤ entry.length →
    0 < describedFrames memoryMap →
    entry.baseAddress + (pageSize - 1) < qwordModulus ∧
      ((pageSize - entry.baseAddress % pageSize) % pageSize ≤ entry.length % pageSize ∨
        describedFrames memoryMap ≤ entry.lastFrame ∨ UsableFrame memoryMap entry.lastFrame)

section Frames

variable {memoryMap : List Int15MemoryMapEntry} {entry : Int15MemoryMapEntry}

private theorem firstFrame_eq (h : entry.baseAddress + (pageSize - 1) < qwordModulus) :
    entry.firstFrame = (entry.baseAddress + (pageSize - 1)) / pageSize := by
  rw [Int15MemoryMapEntry.firstFrame,alignAddressUpper,alignAddressLower,Nat.mod_eq_of_lt h]
  exact Nat.mul_div_cancel _ (by decide)

private theorem firstFrame_wrapped (h : ¬ entry.baseAddress + (pageSize - 1) < qwordModulus) :
    entry.firstFrame = 0 := by
  have hbase := entry.base_lt
  rw [Int15MemoryMapEntry.firstFrame,alignAddressUpper,alignAddressLower]
  unfold pageSize qwordModulus at *
  omega

private theorem contains_of_releases (hbase : entry.baseAddress + (pageSize - 1) < qwordModulus)
    {frame : Nat} (hreleases : entry.Releases frame)
    (hrest : frame = entry.lastFrame →
      (pageSize - entry.baseAddress % pageSize) % pageSize ≤ entry.length % pageSize) :
    mbSize ≤ frame * pageSize ∧ entry.Contains frame := by
  obtain ⟨_,hhigh,hfirst,hlast⟩ := hreleases
  have heq := firstFrame_eq hbase
  rw [Int15MemoryMapEntry.lastFrame] at hrest
  rw [heq] at hfirst hlast hrest
  unfold Int15MemoryMapEntry.Contains
  by_cases hend : frame = (entry.baseAddress + (pageSize - 1)) / pageSize +
      entry.length / pageSize - 1
  · have hmakesUp := hrest hend
    unfold pageSize at *
    omega
  · unfold pageSize at *
    omega

variable (memoryMap) in
private theorem released_usable_iff :
    (∀ frame, (frame < describedFrames memoryMap ∧ ∃ entry ∈ memoryMap, entry.Releases frame) →
        UsableFrame memoryMap frame) ↔
      ∀ entry ∈ memoryMap, ReleasesInside memoryMap entry := by
  constructor
  · intro hall entry hentry husable hhigh hlength hcount
    have hframes : 0 < entry.length / pageSize := Nat.div_pos hlength (by decide)
    have hbase : entry.baseAddress + (pageSize - 1) < qwordModulus := by
      by_contra hwrap
      have hzero := firstFrame_wrapped hwrap
      have hreleases : entry.Releases 0 := ⟨husable,hhigh,hzero.le,by omega⟩
      have hlow := (hall 0 ⟨hcount,entry,hentry,hreleases⟩).1
      rw [Nat.zero_mul] at hlow
      exact absurd hlow (by decide)
    refine ⟨hbase,?_⟩
    by_cases hin : entry.lastFrame < describedFrames memoryMap
    · have hreleases : entry.Releases entry.lastFrame := by
        unfold Int15MemoryMapEntry.lastFrame
        exact ⟨husable,hhigh,by omega,by omega⟩
      exact Or.inr (Or.inr (hall entry.lastFrame ⟨hin,entry,hentry,hreleases⟩))
    · exact Or.inr (Or.inl (Nat.le_of_not_lt hin))
  · rintro hall frame ⟨hframe,entry,hentry,hreleases⟩
    have hlength : pageSize ≤ entry.length := by
      by_contra hshort
      have hnone : entry.length / pageSize = 0 := Nat.div_eq_of_lt (Nat.lt_of_not_le hshort)
      have hfirst := hreleases.2.2.1
      have hlast := hreleases.2.2.2
      omega
    have hinside := hall entry hentry hreleases.1 hreleases.2.1 hlength (by omega)
    by_cases hend : frame = entry.lastFrame
    · rcases hinside.2 with hmakesUp | hbeyond | husable
      · have hcontains := contains_of_releases hinside.1 hreleases fun _ => hmakesUp
        exact ⟨hcontains.1,entry,hentry,hreleases.1,hcontains.2⟩
      · omega
      · rw [hend]
        exact husable
    · have hcontains := contains_of_releases hinside.1 hreleases fun heq => absurd heq hend
      exact ⟨hcontains.1,entry,hentry,hreleases.1,hcontains.2⟩

end Frames

inductive FrameCall
  | reserve (noOfFrames minPhysAddr : Nat)
  | release (physicalAddr noOfFrames : Nat)

/-- The allocation bitmap from its initialization on. -/
def frameSystem (initial : Bitmap) : TransitionSystem Bitmap FrameCall where
  init bitmap := bitmap = initial
  step bitmap
    | .reserve noOfFrames minPhysAddr => some (pmmReserveMemoryEx bitmap noOfFrames minPhysAddr).2
    | .release physicalAddr noOfFrames => pmmReleaseMemory bitmap physicalAddr noOfFrames

/-- Only frames the memory manager could have given out are released. -/
def ReturnsFrames (initial : Bitmap) (_ : Bitmap) : FrameCall → Prop
  | .reserve _ _ => True
  | .release physicalAddr noOfFrames =>
    ∀ offset < noOfFrames, initial.IsFree (physicalAddr / pageSize + offset)

section Runs

variable {initial bitmap : Bitmap}

private theorem free_initially
    (h : (frameSystem initial).ReachableUnder (ReturnsFrames initial) bitmap) :
    bitmap.bitCount = initial.bitCount ∧
      ∀ frame, bitmap.IsFree frame → initial.IsFree frame := by
  induction h with
  | init h =>
    rw [h]
    exact ⟨rfl,fun _ => id⟩
  | @step bitmap bitmap' call _ hguard hstep hinv =>
    cases call with
    | reserve noOfFrames minPhysAddr =>
      obtain rfl := Option.some.inj hstep
      have hspec := pmmReserveMemoryEx_spec
        (Eq.refl (pmmReserveMemoryEx bitmap noOfFrames minPhysAddr))
      exact ⟨hspec.1.trans hinv.1,fun frame hfree => hinv.2 frame (hspec.2.1 frame hfree)⟩
    | release physicalAddr noOfFrames =>
      simp only [frameSystem,pmmReleaseMemory,Option.bind_eq_bind,Option.bind_eq_some_iff] at hstep
      obtain ⟨_,_,_,_,hresult⟩ := hstep
      obtain rfl := Option.some.inj hresult
      refine ⟨hinv.1,?_⟩
      intro frame hfree
      have hclear := hfree.2
      simp only [bitmapClearBits,Bool.and_eq_false_iff,Bool.not_eq_false',decide_eq_true_eq]
        at hclear
      rcases hclear with hreleased | hbefore
      · have hfree := hguard (frame - physicalAddr / pageSize) (by omega)
        rwa [Nat.add_sub_of_le hreleased.1] at hfree
      · exact hinv.2 frame ⟨hfree.1,hbefore⟩

/-- In every run all free frames are usable, and all frames given out, exactly if no entry
releases a last frame that sticks out into memory that is not usable. -/
theorem frames_usable_iff {baseAddress sizeReserved : Nat}
    {memoryMap : List Int15MemoryMapEntry} {pmmData : PmmData}
    (h : pmmInitSystem baseAddress memoryMap = some (.ok (pmmData,sizeReserved))) :
    (∀ bitmap, (frameSystem pmmData.allocationBitmap).ReachableUnder
        (ReturnsFrames pmmData.allocationBitmap) bitmap →
      (∀ frame, bitmap.IsFree frame → UsableFrame memoryMap frame) ∧
      ∀ noOfFrames minPhysAddr pa bitmap',
        pmmReserveMemoryEx bitmap noOfFrames minPhysAddr = (pa,bitmap') → pa ≠ 0 →
          ∀ offset < noOfFrames, UsableFrame memoryMap (pa / pageSize + offset)) ↔
      ∀ entry ∈ memoryMap, ReleasesInside memoryMap entry := by
  rw [← released_usable_iff]
  constructor
  · intro hall frame hreleased
    have hinitial := hall pmmData.allocationBitmap (.init rfl)
    exact hinitial.1 frame ((pmmInitSystem_free h frame).mpr hreleased)
  · intro hall bitmap hreach
    have hfree (frame : Nat) (hframe : bitmap.IsFree frame) : UsableFrame memoryMap frame :=
      hall frame ((pmmInitSystem_free h frame).mp ((free_initially hreach).2 frame hframe))
    refine ⟨hfree,?_⟩
    intro noOfFrames minPhysAddr pa bitmap' hreserve hpa offset hoffset
    exact hfree _ ((pmmReserveMemoryEx_spec hreserve).2.2 hpa offset hoffset)

end Runs

/-- Three pages from 1 MB on. -/
def alignedMemoryMap : List Int15MemoryMapEntry :=
  [⟨0x100000,0x3000,.usableRam,true,by decide,by decide⟩]

theorem frames_usable_aligned : ∃ pmmData sizeReserved,
    pmmInitSystem 0x1000 alignedMemoryMap = some (.ok (pmmData,sizeReserved)) ∧
    ∀ bitmap, (frameSystem pmmData.allocationBitmap).ReachableUnder
        (ReturnsFrames pmmData.allocationBitmap) bitmap →
      (∀ frame, bitmap.IsFree frame → UsableFrame alignedMemoryMap frame) ∧
      ∀ noOfFrames minPhysAddr pa bitmap',
        pmmReserveMemoryEx bitmap noOfFrames minPhysAddr = (pa,bitmap') → pa ≠ 0 →
          ∀ offset < noOfFrames, UsableFrame alignedMemoryMap (pa / pageSize + offset) := by
  have hinit : ∃ pmmData sizeReserved,
      pmmInitSystem 0x1000 alignedMemoryMap = some (.ok (pmmData,sizeReserved)) := ⟨_,_,rfl⟩
  obtain ⟨pmmData,sizeReserved,hinit⟩ := hinit
  refine ⟨pmmData,sizeReserved,hinit,(frames_usable_iff hinit).mpr ?_⟩
  intro entry hentry _ _ _ _
  rw [alignedMemoryMap,List.mem_singleton] at hentry
  subst entry
  exact ⟨by decide,Or.inl (by decide)⟩

/-- A page that starts in the middle of a frame, and a reserved page behind it. -/
def unalignedMemoryMap : List Int15MemoryMapEntry :=
  [⟨0x100800,0x1000,.usableRam,true,by decide,by decide⟩,
    ⟨0x101800,0x1000,.other 2,true,by decide,by decide⟩]

/-- The frame at 0x101000 is given out, and its second half is reserved memory. -/
theorem reserved_half_frame_given_out : ∃ pmmData sizeReserved,
    pmmInitSystem 0x1000 unalignedMemoryMap = some (.ok (pmmData,sizeReserved)) ∧
    pmmData.allocationBitmap.IsFree 0x101 ∧ ¬ UsableFrame unalignedMemoryMap 0x101 ∧
    (pmmReserveMemoryEx pmmData.allocationBitmap 1 0).1 = 0x101000 := by
  refine ⟨_,_,rfl,?_,?_,by decide +kernel⟩
  · exact ⟨by decide +kernel,by decide +kernel⟩
  · rintro ⟨_,entry,hentry,husable,hcontains⟩
    simp only [unalignedMemoryMap,List.mem_cons,List.not_mem_nil,or_false] at hentry
    rcases hentry with rfl | rfl
    · exact absurd hcontains.2 (by decide)
    · cases husable.2

end Hal9000
