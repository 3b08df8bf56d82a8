import Hal9000.Memory.ReservationMetadata
import Hal9000.Memory.ReservationPageMap

/-!
# Commit bitmaps in memory

The functions of `vm_reservation_space.c` with the commit bits where they are, in the buffers of
the bitmap area, and with the common library as a parameter. While no range reaches 2 ^ 64 and no
bits are cleared past the end of a bitmap they do what entries with bits of their own do: the
buffers are apart, so that a write to one bitmap changes no other.
-/

namespace Hal9000

/-- The bits of memory: the byte at an address has the eight from eight times the address on. -/
abbrev BitMemory := Nat → Bool

/-- `BITMAP`. -/
structure BitmapBuffer where
  bitmapBuffer : Nat
  bufferSize : Nat
  bitCount : Nat

namespace BitmapBuffer

def Covers (bitmap : BitmapBuffer) (bit : Nat) : Prop :=
  8 * bitmap.bitmapBuffer ≤ bit ∧ bit < 8 * (bitmap.bitmapBuffer + bitmap.bufferSize)

/-- The buffer holds the bits. -/
def Fits (bitmap : BitmapBuffer) : Prop := bitmap.bitCount ≤ 8 * bitmap.bufferSize

end BitmapBuffer

/-- What is used of the common library. A bitmap operation that fails an assertion is `none`. -/
structure CommonLib where
  checkBounds : Nat → Nat → Nat → Nat → Bool
  bitmapInit : BitmapBuffer → BitMemory → BitMemory
  bitmapSetBits : BitmapBuffer → Nat → Nat → BitMemory → Option BitMemory
  bitmapClearBits : BitmapBuffer → Nat → Nat → BitMemory → Option BitMemory
  bitmapGetBitValue : BitmapBuffer → Nat → BitMemory → Bool

namespace CommonLib

/-- The bits of a bitmap become those given, and only its buffer is written. -/
structure Writes (lib : CommonLib) (bitmap : BitmapBuffer) (memory memory' : BitMemory)
    (bits : Nat → Bool) : Prop where
  inside : ∀ i, i < bitmap.bitCount → lib.bitmapGetBitValue bitmap i memory' = bits i
  outside : ∀ bit, ¬ bitmap.Covers bit → memory' bit = memory bit

/-- What the code relies on. Nothing is said of ranges that reach 2 ^ 64, nor of bits past the
end of a bitmap. -/
structure Documented (lib : CommonLib) : Prop where
  checkBounds : ∀ address size boundAddress boundSize, address + size < qwordModulus →
    boundAddress + boundSize < qwordModulus →
    lib.checkBounds address size boundAddress boundSize =
      Hal9000.checkBounds address size boundAddress boundSize
  bitmapInit : ∀ bitmap memory, bitmap.Fits →
    lib.Writes bitmap memory (lib.bitmapInit bitmap memory) fun _ => false
  bitmapSetBits : ∀ bitmap index count memory, bitmap.Fits → index + count ≤ bitmap.bitCount →
    ∃ memory', lib.bitmapSetBits bitmap index count memory = some memory' ∧
      lib.Writes bitmap memory memory' fun i =>
        decide (index ≤ i ∧ i < index + count) || lib.bitmapGetBitValue bitmap i memory
  bitmapClearBits : ∀ bitmap index count memory, bitmap.Fits → index + count ≤ bitmap.bitCount →
    ∃ memory', lib.bitmapClearBits bitmap index count memory = some memory' ∧
      lib.Writes bitmap memory memory' fun i =>
        !decide (index ≤ i ∧ i < index + count) && lib.bitmapGetBitValue bitmap i memory
  bitmapGetBitValue : ∀ bitmap memory memory', bitmap.Fits →
    (∀ bit, bitmap.Covers bit → memory' bit = memory bit) → ∀ i, i < bitmap.bitCount →
    lib.bitmapGetBitValue bitmap i memory' = lib.bitmapGetBitValue bitmap i memory

end CommonLib

namespace InMemory

structure VmmReservation where
  startVa : Nat
  size : Nat
  pageRights : PageRights
  state : VmmReservationState
  uncacheable : Bool
  backingFile : Option Nat
  commitBitmap : BitmapBuffer

def vmmReservationZero : VmmReservation :=
  ⟨0,0,pageRightsNone,.free,false,none,⟨0,0,0⟩⟩

structure VmmReservationSpace where
  freeVirtualAddressPointer : Nat
  startOfVirtualAddressSpace : Nat
  bitmapAddressStart : Nat
  reservedAreaSize : Nat
  freeBitmapAddress : Nat
  reservationList : Nat
  entries : List VmmReservation
  /-- The bits at the bitmap buffers. -/
  memory : BitMemory

section Functions

variable (lib : CommonLib) (reservationSize : Nat)

def VmmReservationSpace.entryAddress (space : VmmReservationSpace) (index : Nat) : Nat :=
  space.reservationList + index * reservationSize

def vmReservationSpaceInit (metadataBaseAddress reservationBaseAddress metadataSize : Nat)
    (memory : BitMemory) : Option VmmReservationSpace := do
  assert (metadataBaseAddress != 0)
  assert (isAddressAligned metadataBaseAddress pageSize)
  assert (metadataSize != 0)
  let sizeForReservationList :=
    calculatePercentage metadataSize reservationListPercentageInHundreds
  let bitmapAddressStart := ptrOffset metadataBaseAddress sizeForReservationList
  let start := if reservationBaseAddress = 0 then ptrOffset metadataBaseAddress metadataSize
    else reservationBaseAddress
  return {
    freeVirtualAddressPointer := start
    startOfVirtualAddressSpace := start
    bitmapAddressStart := bitmapAddressStart
    reservedAreaSize := metadataSize
    freeBitmapAddress := bitmapAddressStart
    reservationList := metadataBaseAddress
    entries := []
    memory := memory }

def vmReservationSpaceFinishInit (space : VmmReservationSpace) : VmmReservationSpace :=
  { space with entries := [{ vmmReservationZero with state := .last }] }

def vmReservationSpaceDetermineNextFreeVirtualAddress (space : VmmReservationSpace)
    (size : Nat) : Nat × VmmReservationSpace :=
  (space.freeVirtualAddressPointer,
    { space with freeVirtualAddressPointer := ptrOffset space.freeVirtualAddressPointer size })

def findReservationFrom (space : VmmReservationSpace) (address size : Nat) :
    Nat → List VmmReservation → Option Nat
  | _, [] => none
  | index, reservation :: rest =>
    if reservation.state = .last ∨
        ¬ space.entryAddress reservationSize index < space.bitmapAddressStart then none
    else if reservation.state = .free then findReservationFrom space address size (index + 1) rest
    else if lib.checkBounds address size reservation.startVa reservation.size then some index
    else findReservationFrom space address size (index + 1) rest

def vmFindReservation (space : VmmReservationSpace) (address size : Nat) :
    Option (Option Nat) := do
  assert (address != 0)
  assert (size != 0)
  return findReservationFrom lib reservationSize space address size 0 space.entries

def markLast : List VmmReservation → List VmmReservation
  | [] => [{ vmmReservationZero with state := .last }]
  | next :: rest => { next with state := .last } :: rest

def findFirstFreeFrom (space : VmmReservationSpace) :
    Nat → List VmmReservation → Option (Nat × List VmmReservation)
  | _, [] => none
  | index, reservation :: rest =>
    if ¬ space.entryAddress reservationSize index < space.bitmapAddressStart then none
    else match reservation.state with
      | .free => some (index, reservation :: rest)
      | .last => some (index, { reservation with state := .free } :: markLast rest)
      | .used => (findFirstFreeFrom space (index + 1) rest).map fun found =>
          (found.1, reservation :: found.2)

def vmFindFirstFreeReservation (space : VmmReservationSpace) :
    Option (Nat × VmmReservationSpace) :=
  (findFirstFreeFrom reservationSize space 0 space.entries).map fun found =>
    (found.1, { space with entries := found.2 })

/-- `BitmapInit` writes the buffer before its place is checked. -/
def vmInitializeReservation (space : VmmReservationSpace) (address size : Nat)
    (pageRights : PageRights) (uncacheable : Bool) (fileObject : Option Nat) (index : Nat) :
    Option VmmReservationSpace := do
  assert (address != 0)
  assert (size != 0)
  assert (isAddressAligned address pageSize)
  assert (isAddressAligned size pageSize)
  let noOfPages := size / pageSize
  assert (noOfPages ≤ maxDword)
  let bitmapSize := (noOfPages + 7) / 8
  assert (bitmapSize != 0)
  assert (isAddressAligned space.freeBitmapAddress pageSize)
  let bitmap : BitmapBuffer := ⟨space.freeBitmapAddress,bitmapSize,noOfPages⟩
  let memory := lib.bitmapInit bitmap space.memory
  let bitmapBytes := alignAddressUpper bitmapSize pageSize
  assert (lib.checkBounds space.freeBitmapAddress bitmapBytes space.reservationList
    space.reservedAreaSize)
  let reservation : VmmReservation := {
    startVa := address
    size := size
    pageRights := pageRights
    state := .used
    uncacheable := uncacheable
    backingFile := fileObject
    commitBitmap := bitmap }
  return { space with
    entries := space.entries.set index reservation
    freeBitmapAddress := ptrOffset space.freeBitmapAddress bitmapBytes
    memory := memory }

def pageInterval (address size : Nat) (reservation : VmmReservation) : Option (Nat × Nat) := do
  assert (address != 0)
  assert (size != 0)
  assert (isAddressAligned address pageSize)
  assert (isAddressAligned size pageSize)
  let noOfPages := size / pageSize
  let startIndex := ptrDiff address reservation.startVa / pageSize
  assert (noOfPages ≤ maxDword)
  assert (startIndex ≤ maxDword)
  return (startIndex, noOfPages)

def vmCommitReservation (address size : Nat) (reservation : VmmReservation)
    (memory : BitMemory) : Option BitMemory := do
  let (startIndex, noOfPages) ← pageInterval address size reservation
  lib.bitmapSetBits reservation.commitBitmap startIndex noOfPages memory

def vmDecommitReservation (address size : Nat) (reservation : VmmReservation)
    (memory : BitMemory) : Option BitMemory := do
  let (startIndex, noOfPages) ← pageInterval address size reservation
  lib.bitmapClearBits reservation.commitBitmap startIndex noOfPages memory

def vmIsVaCommited (reservation : VmmReservation) (address : Nat) (memory : BitMemory) :
    Option Bool := do
  assert (address != 0)
  let pageNo := ptrDiff address reservation.startVa / pageSize
  assert (pageNo ≤ maxDword)
  return lib.bitmapGetBitValue reservation.commitBitmap pageNo memory

def vmChangeVaReservationState (space : VmmReservationSpace) (address size : Nat)
    (change : VaReservationChange) (pageRights : PageRights) (uncacheable : Bool)
    (fileObject : Option Nat) : Option (Status × VmmReservationSpace) := do
  assert (address != 0)
  assert (size != 0)
  assert (isAddressAligned address pageSize)
  assert (isAddressAligned size pageSize)
  match change, ← vmFindReservation lib reservationSize space address size with
  | .commit, none => return (.memoryIsNotReserved, space)
  | .reserve, some _ => return (.memoryAlreadyReserved, space)
  | .reserve, none =>
    let (index, space) ← vmFindFirstFreeReservation reservationSize space
    let space ← vmInitializeReservation lib space address size pageRights uncacheable fileObject
      index
    return (.success, space)
  | .commit, some index =>
    let reservation ← space.entries[index]?
    if reservation.pageRights ≠ pageRights then
      return (.memoryConflictingAccessRights, space)
    else if reservation.uncacheable ≠ uncacheable then
      return (.memoryConflictingCacheability, space)
    else
      let memory ← vmCommitReservation lib address size reservation space.memory
      return (.success, { space with memory := memory })

def allocRange (space : VmmReservationSpace) (baseAddress size : Nat) :
    Option (Nat × Nat) × VmmReservationSpace :=
  if baseAddress ≠ 0 then
    let alignedBase := alignAddressLower baseAddress pageSize
    let alignedSize :=
      alignAddressUpper ((size + ptrDiff baseAddress alignedBase) % qwordModulus) pageSize
    if alignedBase < space.startOfVirtualAddressSpace then (none, space)
    else (some (alignedBase, alignedSize), space)
  else
    let alignedSize := alignAddressUpper size pageSize
    let (alignedBase, space) := vmReservationSpaceDetermineNextFreeVirtualAddress space alignedSize
    (some (alignedBase, alignedSize), space)

def changeIfFlagged (space : VmmReservationSpace) (range : Nat × Nat) (request : AllocRequest)
    (flag : Bool) (change : VaReservationChange) : Option (Status × VmmReservationSpace) :=
  if flag then
    vmChangeVaReservationState lib reservationSize space range.1 range.2 change request.rights
      request.uncacheable request.fileObject
  else some (.success, space)

def vmReservationSpaceAllocRegion (space : VmmReservationSpace) (request : AllocRequest) :
    Option (Status × Option (Nat × Nat) × VmmReservationSpace) := do
  assert (request.size != 0)
  assert (request.allocType.commit || request.allocType.reserve)
  match allocRange space request.baseAddress request.size with
  | (none, space) => return (.memoryCannotBeReserved, none, space)
  | (some range, space) =>
    let reserved ← changeIfFlagged lib reservationSize space range request
      request.allocType.reserve .reserve
    if reserved.1 ≠ .success then return (reserved.1, none, reserved.2)
    let committed ← changeIfFlagged lib reservationSize reserved.2 range request
      request.allocType.commit .commit
    if committed.1 ≠ .success then return (committed.1, none, committed.2)
    return (.success, some range, committed.2)

def vmReservationSpaceFreeRegion (space : VmmReservationSpace) (address : Nat)
    (freeType : VmmFreeType) :
    Option ((Nat × Nat) × Option (VmmReservation) × VmmReservationSpace) := do
  assert (address != 0)
  let index ← ← vmFindReservation lib reservationSize space address 1
  let reservation ← space.entries[index]?
  match freeType with
  | .release =>
    let space := { space with entries := space.entries.set index vmmReservationZero }
    assert (isAddressAligned reservation.commitBitmap.bitmapBuffer pageSize)
    return ((reservation.startVa, reservation.size), some reservation, space)
  | .decommit size =>
    assert (size != 0)
    let alignedAddress := alignAddressLower address pageSize
    let alignedSize :=
      alignAddressUpper ((size + ptrDiff address alignedAddress) % qwordModulus) pageSize
    let memory ← vmDecommitReservation lib alignedAddress alignedSize reservation space.memory
    return ((alignedAddress, alignedSize), none, { space with memory := memory })

def vmReservationCanAddressBeAccessed (space : VmmReservationSpace) (metadataAccess : Bool)
    (faultingAddress : Nat) (rightsRequested : PageRights) : Option (Option AccessGrant) := do
  if faultingAddress = 0 then return none
  else if lib.checkBounds faultingAddress 1 space.reservationList space.reservedAreaSize then
    if metadataAccess && !rightsRequested.execute then
      return some ⟨pageRightsReadWrite, false, none, 0⟩
    else return none
  else
    match ← vmFindReservation lib reservationSize space faultingAddress 1 with
    | none => return none
    | some index =>
      let reservation ← space.entries[index]?
      let isVaCommited ← vmIsVaCommited lib reservation faultingAddress space.memory
      let fileOffset := if reservation.backingFile.isSome then
        alignAddressLower (ptrDiff faultingAddress reservation.startVa) pageSize else 0
      if isVaCommited && reservation.pageRights.includes rightsRequested then
        return some ⟨reservation.pageRights, reservation.uncacheable, reservation.backingFile,
          fileOffset⟩
      else return none

end Functions

end InMemory

/-- The bitmap without its bits. -/
def Bitmap.inMemory (bitmap : Bitmap) : BitmapBuffer :=
  ⟨bitmap.bitmapBuffer,bitmap.bufferSize,bitmap.bitCount⟩

def VmmReservation.inMemory (r : VmmReservation) : InMemory.VmmReservation :=
  ⟨r.startVa,r.size,r.pageRights,r.state,r.uncacheable,r.backingFile,r.commitBitmap.inMemory⟩

namespace VmmReservationSpace

def inMemory (space : VmmReservationSpace) (memory : BitMemory) :
    InMemory.VmmReservationSpace where
  freeVirtualAddressPointer := space.freeVirtualAddressPointer
  startOfVirtualAddressSpace := space.startOfVirtualAddressSpace
  bitmapAddressStart := space.bitmapAddressStart
  reservedAreaSize := space.reservedAreaSize
  freeBitmapAddress := space.freeBitmapAddress
  reservationList := space.reservationList
  entries := space.entries.map VmmReservation.inMemory
  memory := memory

/-- The bits of the live entries are those at their buffers. -/
def BitsAt (lib : CommonLib) (memory : BitMemory) (space : VmmReservationSpace) : Prop :=
  ∀ i r, space.Live i r → ∀ j, j < r.commitBitmap.bitCount →
    lib.bitmapGetBitValue r.commitBitmap.inMemory j memory = r.commitBitmap.bits j

end VmmReservationSpace

/-- The greatest buffer: one bit for each of 2 ^ 32 - 1 pages. -/
def maxBitmapBytes : Nat := 2 ^ 29

/-- The live reservations end below 2 ^ 64, and their buffers are apart and in the bitmap area,
which does not come near 2 ^ 64 either. -/
structure BitmapsApart (reservationSize : Nat) (space : VmmReservationSpace) : Prop where
  shape : ListShape reservationSize space
  arguments : ∀ i r, space.Live i r → ReserveArguments r.startVa r.size
  words : ∀ i r, space.Live i r → r.startVa + r.size < qwordModulus
  bitCount : ∀ i r, space.Live i r → r.commitBitmap.bitCount = r.size / pageSize ∧
    r.commitBitmap.bufferSize = (r.size / pageSize + 7) / 8
  below : ∀ i r, space.Live i r →
    r.commitBitmap.bitmapBuffer + r.commitBitmap.bufferSize ≤ space.freeBitmapAddress
  apart : ∀ i j r r', space.Live i r → space.Live j r' → i ≠ j →
    r.commitBitmap.bitmapBuffer + r.commitBitmap.bufferSize ≤ r'.commitBitmap.bitmapBuffer ∨
      r'.commitBitmap.bitmapBuffer + r'.commitBitmap.bufferSize ≤ r.commitBitmap.bitmapBuffer
  free : space.freeBitmapAddress ≤ space.reservationList + space.reservedAreaSize
  room : space.reservationList + space.reservedAreaSize + maxBitmapBytes < qwordModulus

section Apart

variable {reservationSize : Nat} {space space' : VmmReservationSpace}

theorem BitmapsApart.fits (h : BitmapsApart reservationSize space) {i : Nat} {r : VmmReservation}
    (hr : space.Live i r) : r.commitBitmap.inMemory.Fits := by
  obtain ⟨hcount,hsize⟩ := h.bitCount i r hr
  simp only [BitmapBuffer.Fits,Bitmap.inMemory,hcount,hsize]
  omega

theorem BitmapsApart.not_covers (h : BitmapsApart reservationSize space) {i j : Nat}
    {r r' : VmmReservation} (hr : space.Live i r) (hr' : space.Live j r') (hne : i ≠ j) {bit : Nat}
    (hbit : r.commitBitmap.inMemory.Covers bit) : ¬ r'.commitBitmap.inMemory.Covers bit := by
  have hapart := h.apart i j r r' hr hr' hne
  simp only [BitmapBuffer.Covers,Bitmap.inMemory] at hbit ⊢
  omega

theorem BitmapsApart.not_covers_new (h : BitmapsApart reservationSize space) {i : Nat}
    {r : VmmReservation} (hr : space.Live i r) {bit bufferSize bitCount : Nat}
    (hbit : r.commitBitmap.inMemory.Covers bit) :
    ¬ BitmapBuffer.Covers ⟨space.freeBitmapAddress,bufferSize,bitCount⟩ bit := by
  have hbelow := h.below i r hr
  simp only [BitmapBuffer.Covers,Bitmap.inMemory] at hbit ⊢
  omega

theorem BitmapsApart.move (h : BitmapsApart reservationSize space) (pointer : Nat) :
    BitmapsApart reservationSize { space with freeVirtualAddressPointer := pointer } :=
  ⟨h.shape.of_entries rfl rfl rfl,h.arguments,h.words,h.bitCount,h.below,h.apart,h.free,h.room⟩

theorem bitmapBytes_le {base size : Nat} (h : ReserveArguments base size) :
    (size / pageSize + 7) / 8 ≤ bitmapBytes size ∧ bitmapBytes size ≤ maxBitmapBytes := by
  have hpages := h.pages_le
  rw [bitmapBytes_eq h]
  simp only [maxDword,maxBitmapBytes] at hpages ⊢
  omega

private theorem BitmapsApart.reserve (h : BitmapsApart reservationSize space) {range : Nat × Nat}
    {rights : PageRights} {uncacheable : Bool} {file : Option Nat}
    (hwords : range.1 + range.2 < qwordModulus)
    (heffect : Effect reservationSize space (.reserve range rights uncacheable file) space') :
    BitmapsApart reservationSize space' := by
  have hshape := heffect.shape h.shape
  obtain ⟨k,hargs,_,_,hlive⟩ := heffect.live_reserve h.shape
  obtain ⟨hfits,hle⟩ := bitmapBytes_le hargs
  have hfree : space'.freeBitmapAddress = space.freeBitmapAddress + bitmapBytes range.2 ∧
      space'.freeBitmapAddress ≤ space'.reservationList + space'.reservedAreaSize ∧
      space'.reservationList + space'.reservedAreaSize =
        space.reservationList + space.reservedAreaSize := by
    have hfreeOld := h.free
    have hroom := h.room
    cases heffect with
    | reserve _ _ _ _ hbounds =>
      obtain ⟨_,hend⟩ := checkBounds_eq_true.mp hbounds
      have hnext : ptrOffset space.freeBitmapAddress (bitmapBytes range.2) =
          space.freeBitmapAddress + bitmapBytes range.2 := Nat.mod_eq_of_lt (by omega)
      exact ⟨hnext,hnext ▸ hend,rfl⟩
  obtain ⟨hfree,hend,harea⟩ := hfree
  refine ⟨hshape,?_,?_,?_,?_,?_,hend,harea ▸ h.room⟩
  · intro i r hr
    rcases (hlive i r).mp hr with ⟨_,rfl⟩ | ⟨_,hr⟩
    · exact hargs
    · exact h.arguments i r hr
  · intro i r hr
    rcases (hlive i r).mp hr with ⟨_,rfl⟩ | ⟨_,hr⟩
    · exact hwords
    · exact h.words i r hr
  · intro i r hr
    rcases (hlive i r).mp hr with ⟨_,rfl⟩ | ⟨_,hr⟩
    · exact ⟨rfl,rfl⟩
    · exact h.bitCount i r hr
  · intro i r hr
    rw [hfree]
    rcases (hlive i r).mp hr with ⟨_,rfl⟩ | ⟨_,hr⟩
    · exact Nat.add_le_add_left hfits _
    · exact (h.below i r hr).trans (Nat.le_add_right _ _)
  · apply pairwise_live_reserve (fun _ _ => Or.symm) hlive _ h.apart
    intro i r hr
    exact Or.inr (h.below i r hr)

private theorem BitmapsApart.rewrite (h : BitmapsApart reservationSize space) {k : Nat}
    {r : VmmReservation} (hr : space.Live k r) (bits : Nat → Bool) :
    BitmapsApart reservationSize { space with
      entries := space.entries.set k
        { r with commitBitmap := { r.commitBitmap with bits := bits } } } := by
  have hlive (i : Nat) (r' : VmmReservation) : VmmReservationSpace.Live { space with
      entries := space.entries.set k
        { r with commitBitmap := { r.commitBitmap with bits := bits } } } i r' →
      ∃ old, space.Live i old ∧ r'.startVa = old.startVa ∧ r'.size = old.size ∧
        r'.commitBitmap.inMemory = old.commitBitmap.inMemory := by
    intro hr'
    rcases (live_rewrite hr (by exact hr.2) rfl i r').mp hr' with ⟨rfl,rfl⟩ | ⟨_,hr'⟩
    · exact ⟨r,hr,rfl,rfl,rfl⟩
    · exact ⟨r',hr',rfl,rfl,rfl⟩
  refine ⟨?_,?_,?_,?_,?_,?_,h.free,h.room⟩
  · have hlast : r.state ≠ .last := by
      rw [hr.2]
      simp
    exact h.shape.set hr.1 hlast (by exact hlast) rfl rfl rfl
  · intro i r' hr'
    obtain ⟨old,hold,hstart,hsize,_⟩ := hlive i r' hr'
    rw [hstart,hsize]
    exact h.arguments i old hold
  · intro i r' hr'
    obtain ⟨old,hold,hstart,hsize,_⟩ := hlive i r' hr'
    rw [hstart,hsize]
    exact h.words i old hold
  · intro i r' hr'
    obtain ⟨old,hold,_,hsize,hbitmap⟩ := hlive i r' hr'
    obtain ⟨_,hbuffer,hcount⟩ := BitmapBuffer.mk.inj hbitmap
    rw [hsize,hbuffer,hcount]
    exact h.bitCount i old hold
  · intro i r' hr'
    obtain ⟨old,hold,_,_,hbitmap⟩ := hlive i r' hr'
    obtain ⟨haddress,hbuffer,_⟩ := BitmapBuffer.mk.inj hbitmap
    rw [haddress,hbuffer]
    exact h.below i old hold
  · intro i j r₁ r₂ hr₁ hr₂ hne
    obtain ⟨old₁,hold₁,_,_,hbitmap₁⟩ := hlive i r₁ hr₁
    obtain ⟨old₂,hold₂,_,_,hbitmap₂⟩ := hlive j r₂ hr₂
    obtain ⟨haddress₁,hbuffer₁,_⟩ := BitmapBuffer.mk.inj hbitmap₁
    obtain ⟨haddress₂,hbuffer₂,_⟩ := BitmapBuffer.mk.inj hbitmap₂
    rw [haddress₁,haddress₂,hbuffer₁,hbuffer₂]
    exact h.apart i j old₁ old₂ hold₁ hold₂ hne

private theorem BitmapsApart.release (h : BitmapsApart reservationSize space) {k : Nat}
    {r : VmmReservation} (hr : space.Live k r) :
    BitmapsApart reservationSize
      { space with entries := space.entries.set k vmmReservationZero } := by
  have hlive (i : Nat) (r' : VmmReservation) : VmmReservationSpace.Live { space with
      entries := space.entries.set k vmmReservationZero } i r' → space.Live i r' :=
    fun hr' => ((live_release hr rfl i r').mp hr').2
  refine ⟨?_,?_,?_,?_,?_,?_,h.free,h.room⟩
  · exact h.shape.set hr.1 (by rw [hr.2]; simp) (by simp [vmmReservationZero]) rfl rfl rfl
  · exact fun i r' hr' => h.arguments i r' (hlive i r' hr')
  · exact fun i r' hr' => h.words i r' (hlive i r' hr')
  · exact fun i r' hr' => h.bitCount i r' (hlive i r' hr')
  · exact fun i r' hr' => h.below i r' (hlive i r' hr')
  · exact fun i j r₁ r₂ hr₁ hr₂ => h.apart i j r₁ r₂ (hlive i r₁ hr₁) (hlive j r₂ hr₂)

end Apart

section Functions

variable {lib : CommonLib} {reservationSize : Nat} {space : VmmReservationSpace}
  {memory : BitMemory}

variable (reservationSize space memory) in
private theorem findReservationFrom_inMemory (hlib : lib.Documented) {address size : Nat}
    (hrange : address + size < qwordModulus) {entries : List VmmReservation}
    (hwords : ∀ r ∈ entries, r.state = .used → r.startVa + r.size < qwordModulus) (index : Nat) :
    InMemory.findReservationFrom lib reservationSize (space.inMemory memory) address size index
      (entries.map VmmReservation.inMemory) =
        findReservationFrom reservationSize space address size index entries := by
  induction entries generalizing index with
  | nil => rfl
  | cons r rest ih =>
    have hrest := ih (fun r' hr' => hwords r' (List.mem_cons_of_mem r hr')) (index + 1)
    have hentry : (space.inMemory memory).entryAddress reservationSize index =
        space.entryAddress reservationSize index := rfl
    have hstart : (space.inMemory memory).bitmapAddressStart = space.bitmapAddressStart := rfl
    have hstate : r.inMemory.state = r.state := rfl
    rw [List.map_cons,InMemory.findReservationFrom,findReservationFrom,hrest,hentry,hstart,hstate]
    cases hused : r.state with
    | free => rfl
    | last => rfl
    | used =>
      have hcheck := hlib.checkBounds address size r.startVa r.size hrange
        (hwords r List.mem_cons_self hused)
      change (if _ then none else if _ then _ else if lib.checkBounds address size r.startVa r.size
        then _ else _) = _
      rw [hcheck]

theorem vmFindReservation_inMemory (hlib : lib.Documented)
    (h : BitmapsApart reservationSize space) {address size : Nat}
    (hrange : address + size < qwordModulus) :
    InMemory.vmFindReservation lib reservationSize (space.inMemory memory) address size =
      vmFindReservation reservationSize space address size := by
  have hwords : ∀ r ∈ space.entries, r.state = .used → r.startVa + r.size < qwordModulus := by
    intro r hr hused
    obtain ⟨i,hi⟩ := List.mem_iff_getElem?.mp hr
    exact h.words i r ⟨hi,hused⟩
  have hfind := findReservationFrom_inMemory reservationSize space memory hlib hrange hwords 0
  have hentries : (space.inMemory memory).entries =
      space.entries.map VmmReservation.inMemory := rfl
  rw [InMemory.vmFindReservation,vmFindReservation,hentries,hfind]

private theorem markLast_inMemory (entries : List VmmReservation) :
    InMemory.markLast (entries.map VmmReservation.inMemory) =
      (markLast entries).map VmmReservation.inMemory := by
  cases entries <;> rfl

variable (reservationSize space memory) in
private theorem findFirstFreeFrom_inMemory (entries : List VmmReservation) (index : Nat) :
    InMemory.findFirstFreeFrom reservationSize (space.inMemory memory) index
      (entries.map VmmReservation.inMemory) =
        (findFirstFreeFrom reservationSize space index entries).map fun found =>
          (found.1,found.2.map VmmReservation.inMemory) := by
  induction entries generalizing index with
  | nil => rfl
  | cons r rest ih =>
    have hentry : (space.inMemory memory).entryAddress reservationSize index =
        space.entryAddress reservationSize index := rfl
    have hstart : (space.inMemory memory).bitmapAddressStart = space.bitmapAddressStart := rfl
    rw [List.map_cons,InMemory.findFirstFreeFrom,findFirstFreeFrom,ih,hentry,hstart]
    split
    · rfl
    · change (match r.state with | .free => _ | .last => _ | .used => _) = _
      cases r.state with
      | free => rfl
      | last =>
        rw [markLast_inMemory]
        rfl
      | used =>
        cases findFirstFreeFrom reservationSize space (index + 1) rest <;> rfl

theorem vmFindFirstFreeReservation_inMemory :
    InMemory.vmFindFirstFreeReservation reservationSize (space.inMemory memory) =
      (vmFindFirstFreeReservation reservationSize space).map fun found =>
        (found.1,found.2.inMemory memory) := by
  have hfound := findFirstFreeFrom_inMemory reservationSize space memory space.entries 0
  have hentries : (space.inMemory memory).entries =
      space.entries.map VmmReservation.inMemory := rfl
  rw [InMemory.vmFindFirstFreeReservation,vmFindFirstFreeReservation,hentries,hfound]
  cases findFirstFreeFrom reservationSize space 0 space.entries <;> rfl

theorem BitmapsApart.bitsAt_write (hlib : lib.Documented) (h : BitmapsApart reservationSize space)
    {k : Nat} {r : VmmReservation} (hr : space.Live k r) {memory' : BitMemory}
    {bits bits' : Nat → Bool}
    (hwrites : lib.Writes r.commitBitmap.inMemory memory memory' bits)
    (hsame : ∀ j, j < r.commitBitmap.bitCount → bits j = bits' j)
    (hbits : space.BitsAt lib memory) :
    VmmReservationSpace.BitsAt lib memory' { space with
      entries := space.entries.set k
        { r with commitBitmap := { r.commitBitmap with bits := bits' } } } := by
  intro i r' hr' j hj
  rcases (live_rewrite hr (by exact hr.2) rfl i r').mp hr' with ⟨_,rfl⟩ | ⟨hne,hr'⟩
  · exact (hwrites.inside j hj).trans (hsame j hj)
  · rw [← hbits i r' hr' j hj]
    apply hlib.bitmapGetBitValue _ _ _ (h.fits hr') _ j hj
    intro bit hbit
    exact hwrites.outside bit (h.not_covers hr' hr hne hbit)

/-- A function in memory did what the one with bits of their own does. -/
structure FollowedBy (lib : CommonLib) (reservationSize : Nat) (space : VmmReservationSpace)
    (memory : BitMemory) (space' : VmmReservationSpace) (memory' : BitMemory) : Prop where
  apart : BitmapsApart reservationSize space'
  bits : space.BitsAt lib memory → space'.BitsAt lib memory'

theorem FollowedBy.same (h : BitmapsApart reservationSize space) :
    FollowedBy lib reservationSize space memory space memory :=
  ⟨h,id⟩

theorem FollowedBy.trans {space₁ space₂ : VmmReservationSpace} {memory₁ memory₂ : BitMemory}
    (h : FollowedBy lib reservationSize space memory space₁ memory₁)
    (h' : FollowedBy lib reservationSize space₁ memory₁ space₂ memory₂) :
    FollowedBy lib reservationSize space memory space₂ memory₂ :=
  ⟨h'.apart,fun hbits => h'.bits (h.bits hbits)⟩

private theorem vmInitializeReservation_inMemory (hlib : lib.Documented)
    (h : BitmapsApart reservationSize space) {found : VmmReservationSpace}
    (hsame : found = { space with entries := found.entries }) {base size k : Nat}
    {rights : PageRights} {uncacheable : Bool} {file : Option Nat}
    {space' : InMemory.VmmReservationSpace}
    (hinit : InMemory.vmInitializeReservation lib (found.inMemory memory) base size rights
      uncacheable file k = some space') :
    ∃ result, vmInitializeReservation found base size rights uncacheable file k = some result ∧
      ReserveArguments base size ∧ space' = result.inMemory (lib.bitmapInit
        (newReservation space (base,size) rights uncacheable file).commitBitmap.inMemory
        memory) := by
  rw [hsame] at hinit ⊢
  simp only [InMemory.vmInitializeReservation,Option.bind_eq_bind,Option.bind_eq_some_iff,
    Option.pure_def,Option.some.injEq,assert_eq_some,bne_iff_ne,isAddressAligned,beq_iff_eq,
    decide_eq_true_eq] at hinit
  obtain ⟨_,hbase,_,hsize,_,hbaseAligned,_,hsizeAligned,_,hpages,_,_,_,haligned,_,hbounds,rfl⟩ :=
    hinit
  have hargs : ReserveArguments base size := ⟨hbase,hsize,hbaseAligned,hsizeAligned,hpages⟩
  have hbytes := (bitmapBytes_le hargs).2
  have hfree := h.free
  have hroom := h.room
  have hcheck := hlib.checkBounds space.freeBitmapAddress (bitmapBytes size) space.reservationList
    space.reservedAreaSize (by omega) (by omega)
  refine ⟨_,vmInitializeReservation_eq_some.mpr ⟨hargs,haligned,hcheck.symm.trans hbounds,rfl⟩,
    hargs,?_⟩
  simp only [VmmReservationSpace.inMemory,List.map_set]
  rfl

private theorem reserve_inMemory (hlib : lib.Documented) (h : BitmapsApart reservationSize space)
    {range : Nat × Nat} (hrange : range.1 + range.2 < qwordModulus) {rights : PageRights}
    {uncacheable : Bool} {file : Option Nat} {status : Status}
    {result : InMemory.VmmReservationSpace}
    (hstep : InMemory.vmChangeVaReservationState lib reservationSize (space.inMemory memory)
      range.1 range.2 .reserve rights uncacheable file = some (status,result)) :
    ∃ space' memory', vmChangeVaReservationState reservationSize space range.1 range.2 .reserve
        rights uncacheable file = some (status,space') ∧
      result = space'.inMemory memory' ∧
      FollowedBy lib reservationSize space memory space' memory' := by
  rw [InMemory.vmChangeVaReservationState,vmFindReservation_inMemory hlib h hrange,
    vmFindFirstFreeReservation_inMemory] at hstep
  simp only [Option.bind_eq_bind,Option.bind_eq_some_iff] at hstep
  obtain ⟨_,hbase,_,hsize,_,hbaseAligned,_,hsizeAligned,found,hfound,hstep⟩ := hstep
  cases found with
  | some k =>
    obtain ⟨rfl,rfl⟩ := Prod.mk.inj (Option.some.inj hstep)
    refine ⟨space,memory,?_,rfl,.same h⟩
    simp [vmChangeVaReservationState,hbase,hsize,hbaseAligned,hsizeAligned,hfound]
  | none =>
    simp only [Option.bind_eq_some_iff] at hstep
    obtain ⟨⟨k,found⟩,hfree,result',hinit,hstep⟩ := hstep
    obtain ⟨rfl,rfl⟩ := Prod.mk.inj (Option.some.inj hstep)
    obtain ⟨⟨k',found'⟩,hfree',heq⟩ := Option.map_eq_some_iff.mp hfree
    obtain ⟨rfl,rfl⟩ := Prod.mk.inj heq
    obtain ⟨_,_,_,_,hsame⟩ := vmFindFirstFreeReservation_spec h.shape hfree'
    obtain ⟨space',hspace',hargs,rfl⟩ := vmInitializeReservation_inMemory hlib h hsame hinit
    have hchange : vmChangeVaReservationState reservationSize space range.1 range.2 .reserve rights
        uncacheable file = some (.success,space') := by
      simp [vmChangeVaReservationState,hbase,hsize,hbaseAligned,hsizeAligned,hfound,hfree',hspace']
    have heffect := ((reserve_effect h.shape hchange).resolve_left fun hfailed => hfailed.1 rfl).2
    refine ⟨space',_,hchange,rfl,h.reserve hrange heffect,?_⟩
    intro hbits i r hr j hj
    obtain ⟨_,_,_,_,hlive⟩ := heffect.live_reserve h.shape
    have hfits : (newReservation space range rights uncacheable
        file).commitBitmap.inMemory.Fits := by
      simp only [BitmapBuffer.Fits,Bitmap.inMemory,newReservation,bitmapInit,bitmapPreinit]
      omega
    have hwrites := hlib.bitmapInit _ memory hfits
    rcases (hlive i r).mp hr with ⟨_,rfl⟩ | ⟨_,hr⟩
    · exact hwrites.inside j hj
    · rw [← hbits i r hr j hj]
      apply hlib.bitmapGetBitValue _ _ _ (h.fits hr) _ j hj
      intro bit hbit
      exact hwrites.outside bit (h.not_covers_new hr hbit)

private theorem interval_le {r : VmmReservation} (hargs : ReserveArguments r.startVa r.size)
    {range interval : Nat × Nat} (hin : checkBounds range.1 range.2 r.startVa r.size = true)
    (hinterval : pageInterval range.1 range.2 r = some interval) :
    interval.1 + interval.2 ≤ r.size / pageSize := by
  obtain ⟨hlow,hhigh⟩ := checkBounds_eq_true.mp hin
  have hsize : range.2 ≠ 0 := by
    simp only [pageInterval,Option.bind_eq_bind,Option.bind_eq_some_iff,assert_eq_some,
      bne_iff_ne] at hinterval
    obtain ⟨_,_,_,hsize,_⟩ := hinterval
    exact hsize
  obtain ⟨hbase,hsizeAligned,_,rfl⟩ := pageInterval_spec hargs hlow (by omega) hinterval
  have hstart := hargs.base_aligned
  have hwhole := hargs.size_aligned
  simp only [pageSize] at *
  omega

private theorem inMemory_rewrite {k : Nat} {r : VmmReservation} (hr : space.Live k r)
    (bits : Nat → Bool) (memory memory' : BitMemory) :
    VmmReservationSpace.inMemory { space with
      entries := space.entries.set k
        { r with commitBitmap := { r.commitBitmap with bits := bits } } } memory' =
      { space.inMemory memory with memory := memory' } := by
  obtain ⟨hk,hentry⟩ := List.getElem?_eq_some_iff.mp hr.1
  have hentries : (space.entries.set k
      { r with commitBitmap := { r.commitBitmap with bits := bits } }).map
        VmmReservation.inMemory = space.entries.map VmmReservation.inMemory := by
    rw [List.map_set]
    apply List.ext_getElem?
    intro i
    by_cases hi : i = k
    · subst hi
      rw [List.getElem?_set_self (by simpa using hk),List.getElem?_map,hr.1]
      rfl
    · rw [List.getElem?_set_ne (Ne.symm hi)]
  simp only [VmmReservationSpace.inMemory,hentries]

private theorem FollowedBy.write (hlib : lib.Documented) (h : BitmapsApart reservationSize space)
    {k : Nat} {r : VmmReservation} (hr : space.Live k r) {memory' : BitMemory}
    (change : Nat → Bool → Bool) (hwrites : lib.Writes r.commitBitmap.inMemory memory memory'
      fun i => change i (lib.bitmapGetBitValue r.commitBitmap.inMemory i memory)) :
    FollowedBy lib reservationSize space memory { space with
      entries := space.entries.set k { r with
        commitBitmap := { r.commitBitmap with
          bits := fun i => change i (r.commitBitmap.bits i) } } } memory' := by
  refine ⟨h.rewrite hr _,fun hbits => h.bitsAt_write hlib hr hwrites ?_ hbits⟩
  intro j hj
  rw [hbits k r hr j hj]

private theorem commit_inMemory (hlib : lib.Documented) (h : BitmapsApart reservationSize space)
    {range : Nat × Nat} (hrange : range.1 + range.2 < qwordModulus) {rights : PageRights}
    {uncacheable : Bool} {file : Option Nat} {status : Status}
    {result : InMemory.VmmReservationSpace}
    (hstep : InMemory.vmChangeVaReservationState lib reservationSize (space.inMemory memory)
      range.1 range.2 .commit rights uncacheable file = some (status,result)) :
    ∃ space' memory', vmChangeVaReservationState reservationSize space range.1 range.2 .commit
        rights uncacheable file = some (status,space') ∧
      result = space'.inMemory memory' ∧
      FollowedBy lib reservationSize space memory space' memory' := by
  rw [InMemory.vmChangeVaReservationState,vmFindReservation_inMemory hlib h hrange] at hstep
  simp only [Option.bind_eq_bind,Option.bind_eq_some_iff] at hstep
  obtain ⟨_,hbase,_,hsize,_,hbaseAligned,_,hsizeAligned,found,hfound,hstep⟩ := hstep
  cases found with
  | none =>
    obtain ⟨rfl,rfl⟩ := Prod.mk.inj (Option.some.inj hstep)
    refine ⟨space,memory,?_,rfl,.same h⟩
    simp [vmChangeVaReservationState,hbase,hsize,hbaseAligned,hsizeAligned,hfound]
  | some k =>
    obtain ⟨entry,hentry,hstep⟩ := Option.bind_eq_some_iff.mp hstep
    obtain ⟨r,hlive,hin⟩ := (vmFindReservation_spec h.shape hfound).1 k rfl
    have hmap : (space.inMemory memory).entries[k]? = some r.inMemory := by
      change (space.entries.map VmmReservation.inMemory)[k]? = _
      rw [List.getElem?_map,hlive.1]
      rfl
    obtain rfl : r.inMemory = entry := Option.some.inj (hmap.symm.trans hentry)
    change (if r.pageRights ≠ rights then _ else if r.uncacheable ≠ uncacheable then _ else _) = _
      at hstep
    split at hstep
    · rename_i hrights
      obtain ⟨rfl,rfl⟩ := Prod.mk.inj (Option.some.inj hstep)
      refine ⟨space,memory,?_,rfl,.same h⟩
      simp [vmChangeVaReservationState,hbase,hsize,hbaseAligned,hsizeAligned,hfound,hlive.1,hrights]
    · rename_i hrights
      split at hstep
      · rename_i hcache
        obtain ⟨rfl,rfl⟩ := Prod.mk.inj (Option.some.inj hstep)
        refine ⟨space,memory,?_,rfl,.same h⟩
        simp [vmChangeVaReservationState,hbase,hsize,hbaseAligned,hsizeAligned,hfound,hlive.1,
          hrights,hcache]
      · rename_i hcache
        obtain ⟨memory',hcommit,hstep⟩ := Option.bind_eq_some_iff.mp hstep
        obtain ⟨rfl,rfl⟩ := Prod.mk.inj (Option.some.inj hstep)
        obtain ⟨interval,hinterval,hset⟩ := Option.bind_eq_some_iff.mp hcommit
        change pageInterval range.1 range.2 r = some interval at hinterval
        have hinside : interval.1 + interval.2 ≤ r.commitBitmap.inMemory.bitCount := by
          change _ ≤ r.commitBitmap.bitCount
          rw [(h.bitCount k r hlive).1]
          exact interval_le (h.arguments k r hlive) hin hinterval
        obtain ⟨memory₁,hset₁,hwrites⟩ := hlib.bitmapSetBits r.commitBitmap.inMemory interval.1
          interval.2 memory (h.fits hlive) hinside
        obtain rfl : memory₁ = memory' := Option.some.inj (hset₁.symm.trans hset)
        refine ⟨_,memory₁,?_,(inMemory_rewrite hlive _ memory memory₁).symm,
          .write hlib h hlive
            (fun i bit => decide (interval.1 ≤ i ∧ i < interval.1 + interval.2) || bit) hwrites⟩
        simp [vmChangeVaReservationState,hbase,hsize,hbaseAligned,hsizeAligned,hfound,hlive.1,
          not_not.mp hrights,not_not.mp hcache,vmCommitReservation,hinterval,bitmapSetBits]

private theorem changeIfFlagged_inMemory (hlib : lib.Documented)
    (h : BitmapsApart reservationSize space) {range : Nat × Nat}
    (hrange : range.1 + range.2 < qwordModulus) {request : AllocRequest} {flag : Bool}
    {change : VaReservationChange} {status : Status} {result : InMemory.VmmReservationSpace}
    (hstep : InMemory.changeIfFlagged lib reservationSize (space.inMemory memory) range request
      flag change = some (status,result)) :
    ∃ space' memory', changeIfFlagged reservationSize space range request flag change =
        some (status,space') ∧ result = space'.inMemory memory' ∧
      FollowedBy lib reservationSize space memory space' memory' := by
  cases flag with
  | false =>
    obtain ⟨rfl,rfl⟩ := Prod.mk.inj (Option.some.inj hstep)
    exact ⟨space,memory,rfl,rfl,.same h⟩
  | true =>
    cases change with
    | reserve => exact reserve_inMemory hlib h hrange hstep
    | commit => exact commit_inMemory hlib h hrange hstep

theorem allocRange_inMemory (space : VmmReservationSpace) (memory : BitMemory)
    (baseAddress size : Nat) :
    InMemory.allocRange (space.inMemory memory) baseAddress size =
      ((allocRange space baseAddress size).1,
        (allocRange space baseAddress size).2.inMemory memory) := by
  have hstart : (space.inMemory memory).startOfVirtualAddressSpace =
      space.startOfVirtualAddressSpace := rfl
  rw [InMemory.allocRange,allocRange,hstart]
  split
  · dsimp only
    split <;> rfl
  · rfl

theorem vmReservationSpaceAllocRegion_inMemory (hlib : lib.Documented)
    (h : BitmapsApart reservationSize space) {request : AllocRequest}
    (hrange : ∀ range ∈ (allocRange space request.baseAddress request.size).1,
      range.1 + range.2 < qwordModulus) {status : Status} {mapped : Option (Nat × Nat)}
    {result : InMemory.VmmReservationSpace}
    (hstep : InMemory.vmReservationSpaceAllocRegion lib reservationSize (space.inMemory memory)
      request = some (status,mapped,result)) :
    ∃ space' memory', vmReservationSpaceAllocRegion reservationSize space request =
        some (status,mapped,space') ∧ result = space'.inMemory memory' ∧
      FollowedBy lib reservationSize space memory space' memory' := by
  rw [InMemory.vmReservationSpaceAllocRegion,allocRange_inMemory] at hstep
  simp only [vmReservationSpaceAllocRegion,vmReservationSpaceChangeRange,Option.bind_eq_bind,
    Option.bind_eq_some_iff] at hstep ⊢
  obtain ⟨_,hsize,_,htype,hstep⟩ := hstep
  obtain ⟨pointer,hmoved⟩ := allocRange_moved space request.baseAddress request.size
  generalize allocRange space request.baseAddress request.size = moved at hmoved hstep hrange ⊢
  obtain ⟨range,space₀⟩ := moved
  simp only at hmoved hrange
  subst hmoved
  have h₀ := h.move pointer
  have hmove : FollowedBy lib reservationSize space memory
      { space with freeVirtualAddressPointer := pointer } memory := ⟨h₀,fun hbits => hbits⟩
  cases range with
  | none =>
    obtain ⟨rfl,rfl,rfl⟩ := Option.some.inj hstep
    exact ⟨_,memory,⟨_,hsize,_,htype,rfl⟩,rfl,hmove⟩
  | some range =>
    have hrange := hrange range rfl
    simp only [Option.bind_eq_some_iff] at hstep
    obtain ⟨⟨status₁,result₁⟩,hreserve,hstep⟩ := hstep
    obtain ⟨space₁,memory₁,hreserve',rfl,hfirst⟩ := changeIfFlagged_inMemory hlib h₀ hrange hreserve
    split at hstep
    · rename_i hfailed
      obtain ⟨rfl,rfl,rfl⟩ := Option.some.inj hstep
      refine ⟨space₁,memory₁,⟨_,hsize,_,htype,?_⟩,rfl,hmove.trans hfirst⟩
      simp only [hreserve',Option.bind_some,if_pos hfailed]
      rfl
    · rename_i hreserved
      simp only [Option.bind_eq_some_iff] at hstep
      obtain ⟨⟨status₂,result₂⟩,hcommit,hstep⟩ := hstep
      obtain ⟨space₂,memory₂,hcommit',rfl,hsecond⟩ :=
        changeIfFlagged_inMemory hlib hfirst.apart hrange hcommit
      split at hstep
      · rename_i hfailed
        obtain ⟨rfl,rfl,rfl⟩ := Option.some.inj hstep
        refine ⟨space₂,memory₂,⟨_,hsize,_,htype,?_⟩,rfl,(hmove.trans hfirst).trans hsecond⟩
        simp only [hreserve',Option.bind_some,if_neg hreserved,hcommit',if_pos hfailed]
        rfl
      · rename_i hcommitted
        obtain ⟨rfl,rfl,rfl⟩ := Option.some.inj hstep
        refine ⟨space₂,memory₂,⟨_,hsize,_,htype,?_⟩,rfl,(hmove.trans hfirst).trans hsecond⟩
        simp only [hreserve',Option.bind_some,if_neg hreserved,hcommit',if_neg hcommitted]
        rfl

theorem entry_inMemory {k : Nat} {r : VmmReservation} (hr : space.Live k r) :
    (space.inMemory memory).entries[k]? = some r.inMemory := by
  change (space.entries.map VmmReservation.inMemory)[k]? = _
  rw [List.getElem?_map,hr.1]
  rfl

theorem freeRegion_release_inMemory (hlib : lib.Documented)
    (h : BitmapsApart reservationSize space) {address : Nat} (haddress : address + 1 < qwordModulus)
    {range : Nat × Nat} {copy : Option InMemory.VmmReservation}
    {result : InMemory.VmmReservationSpace}
    (hstep : InMemory.vmReservationSpaceFreeRegion lib reservationSize (space.inMemory memory)
      address .release = some (range,copy,result)) :
    ∃ r space', vmReservationSpaceFreeRegion reservationSize space address .release =
        some (range,some r,space') ∧ copy = some r.inMemory ∧ result = space'.inMemory memory ∧
      FollowedBy lib reservationSize space memory space' memory := by
  rw [InMemory.vmReservationSpaceFreeRegion,vmFindReservation_inMemory hlib h haddress] at hstep
  simp only [Option.bind_eq_bind,Option.bind_eq_some_iff] at hstep
  obtain ⟨_,hne,_,hfound,k,rfl,entry,hentry,_,haligned,hstep⟩ := hstep
  obtain ⟨rfl,rfl,rfl⟩ := Option.some.inj hstep
  obtain ⟨r,hlive,_⟩ := (vmFindReservation_spec h.shape hfound).1 k rfl
  obtain rfl : r.inMemory = entry := Option.some.inj ((entry_inMemory hlive).symm.trans hentry)
  change assert (isAddressAligned r.commitBitmap.bitmapBuffer pageSize) = _ at haligned
  refine ⟨r,{ space with entries := space.entries.set k vmmReservationZero },?_,rfl,?_,
    h.release hlive,?_⟩
  · simp [vmReservationSpaceFreeRegion,hne,hfound,hlive.1,haligned,VmmReservation.inMemory]
  · simp only [VmmReservationSpace.inMemory,List.map_set]
    rfl
  · exact fun hbits i r' hr' => hbits i r' ((live_release hlive rfl i r').mp hr').2

/-- What `VmReservationSpaceFreeRegion` writes to `AlignedAddress` and `AlignedSize`. -/
def decommitRange (address size : Nat) : Nat × Nat :=
  (alignAddressLower address pageSize,
    alignAddressUpper ((size + ptrDiff address (alignAddressLower address pageSize)) % qwordModulus)
      pageSize)

theorem freeRegion_decommit_inMemory (hlib : lib.Documented)
    (h : BitmapsApart reservationSize space) {address size : Nat}
    (haddress : address + 1 < qwordModulus) {range : Nat × Nat}
    {copy : Option InMemory.VmmReservation} {result : InMemory.VmmReservationSpace}
    (hstep : InMemory.vmReservationSpaceFreeRegion lib reservationSize (space.inMemory memory)
      address (.decommit size) = some (range,copy,result)) :
    ∃ k r interval memory', copy = none ∧
      vmFindReservation reservationSize space address 1 = some (some k) ∧ space.Live k r ∧
      checkBounds address 1 r.startVa r.size = true ∧
      range = decommitRange address size ∧
      pageInterval range.1 range.2 r = some interval ∧
      lib.bitmapClearBits r.commitBitmap.inMemory interval.1 interval.2 memory = some memory' ∧
      result = { space.inMemory memory with memory := memory' } ∧
      vmReservationSpaceFreeRegion reservationSize space address (.decommit size) =
        some (range,none,{ space with
          entries := space.entries.set k { r with
            commitBitmap := bitmapClearBits r.commitBitmap interval.1 interval.2 } }) := by
  rw [InMemory.vmReservationSpaceFreeRegion,vmFindReservation_inMemory hlib h haddress] at hstep
  simp only [Option.bind_eq_bind,Option.bind_eq_some_iff] at hstep
  obtain ⟨_,hne,_,hfound,k,rfl,entry,hentry,_,hsize,memory',hclear,hstep⟩ := hstep
  obtain ⟨rfl,rfl,rfl⟩ := Option.some.inj hstep
  obtain ⟨r,hlive,hin⟩ := (vmFindReservation_spec h.shape hfound).1 k rfl
  obtain rfl : r.inMemory = entry := Option.some.inj ((entry_inMemory hlive).symm.trans hentry)
  obtain ⟨interval,hinterval,hclear⟩ := Option.bind_eq_some_iff.mp hclear
  change pageInterval _ _ r = some interval at hinterval
  refine ⟨k,r,interval,memory',rfl,hfound,hlive,hin,rfl,hinterval,hclear,rfl,?_⟩
  simp [vmReservationSpaceFreeRegion,hne,hsize,hfound,hlive.1,vmDecommitReservation,hinterval]

theorem decommit_followedBy (hlib : lib.Documented) (h : BitmapsApart reservationSize space)
    {k : Nat} {r : VmmReservation} (hr : space.Live k r) {range interval : Nat × Nat}
    (hin : checkBounds range.1 range.2 r.startVa r.size = true)
    (hinterval : pageInterval range.1 range.2 r = some interval) {memory' : BitMemory}
    (hclear : lib.bitmapClearBits r.commitBitmap.inMemory interval.1 interval.2 memory =
      some memory') :
    lib.Writes r.commitBitmap.inMemory memory memory' (fun i =>
        !decide (interval.1 ≤ i ∧ i < interval.1 + interval.2) &&
          lib.bitmapGetBitValue r.commitBitmap.inMemory i memory) ∧
      FollowedBy lib reservationSize space memory { space with
        entries := space.entries.set k { r with
          commitBitmap := bitmapClearBits r.commitBitmap interval.1 interval.2 } } memory' := by
  have hinside : interval.1 + interval.2 ≤ r.commitBitmap.inMemory.bitCount := by
    change _ ≤ r.commitBitmap.bitCount
    rw [(h.bitCount k r hr).1]
    exact interval_le (h.arguments k r hr) hin hinterval
  obtain ⟨memory₁,hclear₁,hwrites⟩ := hlib.bitmapClearBits r.commitBitmap.inMemory interval.1
    interval.2 memory (h.fits hr) hinside
  obtain rfl : memory₁ = memory' := Option.some.inj (hclear₁.symm.trans hclear)
  exact ⟨hwrites,.write hlib h hr
    (fun i bit => !decide (interval.1 ≤ i ∧ i < interval.1 + interval.2) && bit) hwrites⟩

theorem decommit_inMemory {k : Nat} {r : VmmReservation} (hr : space.Live k r)
    (index count : Nat) (memory memory' : BitMemory) :
    VmmReservationSpace.inMemory { space with
      entries := space.entries.set k { r with
        commitBitmap := bitmapClearBits r.commitBitmap index count } } memory' =
      { space.inMemory memory with memory := memory' } :=
  inMemory_rewrite hr _ memory memory'

theorem decommit_apart (h : BitmapsApart reservationSize space) {k : Nat} {r : VmmReservation}
    (hr : space.Live k r) (index count : Nat) :
    BitmapsApart reservationSize { space with
      entries := space.entries.set k { r with
        commitBitmap := bitmapClearBits r.commitBitmap index count } } :=
  h.rewrite hr _

private theorem vmIsVaCommited_inMemory (h : BitmapsApart reservationSize space)
    (hbits : space.BitsAt lib memory) {k : Nat} {r : VmmReservation} (hr : space.Live k r)
    {address : Nat} (hin : checkBounds address 1 r.startVa r.size = true) :
    InMemory.vmIsVaCommited lib r.inMemory address memory = vmIsVaCommited r address := by
  have hargs := h.arguments k r hr
  have haligned := hargs.size_aligned
  obtain ⟨hlow,hhigh⟩ := checkBounds_eq_true.mp hin
  have hpage : ptrDiff address r.startVa / pageSize < r.commitBitmap.bitCount := by
    rw [(h.bitCount k r hr).1,ptrDiff_inside hargs hlow (by omega)]
    simp only [pageSize] at haligned ⊢
    omega
  have hbit := hbits k r hr _ hpage
  simp only [InMemory.vmIsVaCommited,vmIsVaCommited,← hbit]
  rfl

theorem vmReservationCanAddressBeAccessed_inMemory (hlib : lib.Documented)
    (h : BitmapsApart reservationSize space) (hbits : space.BitsAt lib memory)
    (metadataAccess : Bool) {address : Nat} (haddress : address + 1 < qwordModulus)
    (requested : PageRights) :
    InMemory.vmReservationCanAddressBeAccessed lib reservationSize (space.inMemory memory)
      metadataAccess address requested =
        vmReservationCanAddressBeAccessed reservationSize space metadataAccess address
          requested := by
  have hroom := h.room
  have harea := hlib.checkBounds address 1 space.reservationList space.reservedAreaSize haddress
    (by omega)
  have hlist : (space.inMemory memory).reservationList = space.reservationList := rfl
  have hsize : (space.inMemory memory).reservedAreaSize = space.reservedAreaSize := rfl
  rw [InMemory.vmReservationCanAddressBeAccessed,vmReservationCanAddressBeAccessed,hlist,hsize,
    harea,vmFindReservation_inMemory hlib h haddress]
  split
  · rfl
  · rename_i hne
    split
    · rfl
    · cases hfound : vmFindReservation reservationSize space address 1 with
      | none => rfl
      | some found =>
        cases found with
        | none => rfl
        | some k =>
          obtain ⟨r,hlive,hin⟩ := (vmFindReservation_spec h.shape hfound).1 k rfl
          have hcommitted := vmIsVaCommited_inMemory h hbits hlive hin
          simp only [Option.bind_eq_bind,Option.bind_some,entry_inMemory hlive,hlive.1]
          change (InMemory.vmIsVaCommited lib r.inMemory address memory).bind _ = _
          rw [hcommitted]
          rfl

end Functions

end Hal9000
