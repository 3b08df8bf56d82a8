import Hal9000.Common.Machine

/-!
# Virtual-memory reservation spaces

Embedding of `vm_reservation_space.c`. The reservation list is an array of entries closed
by a sentinel; its element size and the commit-bitmap sizes come from the headers of the
common library. A result of `none` is a failed assertion.
-/

namespace Hal9000

inductive VmmReservationState
  | free | used | last
  deriving DecidableEq, Repr

structure PageRights where
  read : Bool
  write : Bool
  execute : Bool
  deriving DecidableEq, Repr

def pageRightsNone : PageRights := ⟨false, false, false⟩
def pageRightsReadWrite : PageRights := ⟨true, true, false⟩

/-- `IsBooleanFlagOn(rights, requested)`: every requested right is granted. -/
def PageRights.includes (rights requested : PageRights) : Bool :=
  (!requested.read || rights.read) && (!requested.write || rights.write) &&
    (!requested.execute || rights.execute)

/-- A commit bitmap: where its buffer lies, how many pages it describes and which of them are
committed. The bits are its own here: those in memory at the buffer are in `BitmapMemory`. -/
structure Bitmap where
  bitmapBuffer : Nat
  bufferSize : Nat
  bitCount : Nat
  bits : Nat → Bool

def bitmapZero : Bitmap := ⟨0, 0, 0, fun _ => false⟩

/-- The buffer takes one bit for each element, rounded up to bytes. -/
def bitmapPreinit (noOfElements : Nat) : Bitmap :=
  ⟨0, (noOfElements + 7) / 8, noOfElements, fun _ => false⟩

def bitmapInit (bitmap : Bitmap) (buffer : Nat) : Bitmap :=
  { bitmap with bitmapBuffer := buffer, bits := fun _ => false }

def bitmapSetBits (bitmap : Bitmap) (index count : Nat) : Bitmap :=
  { bitmap with bits := fun i => decide (index ≤ i ∧ i < index + count) || bitmap.bits i }

def bitmapClearBits (bitmap : Bitmap) (index count : Nat) : Bitmap :=
  { bitmap with bits := fun i => !decide (index ≤ i ∧ i < index + count) && bitmap.bits i }

structure VmmReservation where
  startVa : Nat
  size : Nat
  pageRights : PageRights
  state : VmmReservationState
  uncacheable : Bool
  backingFile : Option Nat
  commitBitmap : Bitmap

/-- An entry after `memzero`. -/
def vmmReservationZero : VmmReservation :=
  ⟨0, 0, pageRightsNone, .free, false, none, bitmapZero⟩

structure VmmReservationSpace where
  freeVirtualAddressPointer : Nat
  startOfVirtualAddressSpace : Nat
  bitmapAddressStart : Nat
  reservedAreaSize : Nat
  freeBitmapAddress : Nat
  /-- The address of the first entry. -/
  reservationList : Nat
  /-- The entries written so far, the sentinel included. -/
  entries : List VmmReservation

inductive Status
  | success
  | elementNotFound
  | memoryCannotBeReserved
  | memoryIsNotReserved
  | memoryAlreadyReserved
  | memoryConflictingAccessRights
  | memoryConflictingCacheability
  | memoryIsNotCommited
  deriving DecidableEq, Repr

structure VmmAllocType where
  reserve : Bool
  commit : Bool
  deriving DecidableEq, Repr

/-- The one flag `_VmChangeVaReservationState` is called with. -/
inductive VaReservationChange
  | reserve | commit
  deriving DecidableEq, Repr

inductive VmmFreeType
  | release
  | decommit (size : Nat)
  deriving DecidableEq, Repr

def reservationListPercentageInHundreds : Nat := 20 * 100

section ReservationList

variable (reservationSize : Nat)

/-- The address of an entry of the list. -/
def VmmReservationSpace.entryAddress (space : VmmReservationSpace) (index : Nat) : Nat :=
  space.reservationList + index * reservationSize

def vmReservationSpaceInit (metadataBaseAddress reservationBaseAddress metadataSize : Nat) :
    Option VmmReservationSpace := do
  assert (metadataBaseAddress != 0)
  assert (isAddressAligned metadataBaseAddress pageSize)
  assert (metadataSize != 0)
  let sizeForReservationList :=
    calculatePercentage metadataSize reservationListPercentageInHundreds
  let bitmapAddressStart := ptrOffset metadataBaseAddress sizeForReservationList
  let start := if reservationBaseAddress = 0 then ptrOffset metadataBaseAddress metadataSize
    else reservationBaseAddress
  return {
    freeVirtualAddressPointer := start
    startOfVirtualAddressSpace := start
    bitmapAddressStart := bitmapAddressStart
    reservedAreaSize := metadataSize
    freeBitmapAddress := bitmapAddressStart
    reservationList := metadataBaseAddress
    entries := [] }

def vmReservationSpaceFinishInit (space : VmmReservationSpace) : VmmReservationSpace :=
  { space with entries := [{ vmmReservationZero with state := .last }] }

/-- `_InterlockedExchangeAdd64`: the old value of the bump pointer is returned. -/
def vmReservationSpaceDetermineNextFreeVirtualAddress (space : VmmReservationSpace)
    (size : Nat) : Nat × VmmReservationSpace :=
  (space.freeVirtualAddressPointer,
    { space with freeVirtualAddressPointer := ptrOffset space.freeVirtualAddressPointer size })

/-- The loop of `_VmFindReservation` from the entry with the given index on. -/
def findReservationFrom (space : VmmReservationSpace) (address size : Nat) :
    Nat → List VmmReservation → Option Nat
  | _, [] => none
  | index, reservation :: rest =>
    if reservation.state = .last ∨
        ¬ space.entryAddress reservationSize index < space.bitmapAddressStart then none
    else if reservation.state = .free then findReservationFrom space address size (index + 1) rest
    else if checkBounds address size reservation.startVa reservation.size then some index
    else findReservationFrom space address size (index + 1) rest

/-- The index of the entry found; `none` is `STATUS_ELEMENT_NOT_FOUND`. -/
def vmFindReservation (space : VmmReservationSpace) (address size : Nat) :
    Option (Option Nat) := do
  assert (address != 0)
  assert (size != 0)
  return findReservationFrom reservationSize space address size 0 space.entries

/-- The entry behind the old sentinel becomes the sentinel; it may never have been written. -/
def markLast : List VmmReservation → List VmmReservation
  | [] => [{ vmmReservationZero with state := .last }]
  | next :: rest => { next with state := .last } :: rest

/-- The loop of `_VmFindFirstFreeReservation`. A sentinel found before a free entry is itself
returned, once the entry behind it is marked. -/
def findFirstFreeFrom (space : VmmReservationSpace) :
    Nat → List VmmReservation → Option (Nat × List VmmReservation)
  | _, [] => none
  | index, reservation :: rest =>
    if ¬ space.entryAddress reservationSize index < space.bitmapAddressStart then none
    else match reservation.state with
      | .free => some (index, reservation :: rest)
      | .last => some (index, { reservation with state := .free } :: markLast rest)
      | .used => (findFirstFreeFrom space (index + 1) rest).map fun found =>
          (found.1, reservation :: found.2)

def vmFindFirstFreeReservation (space : VmmReservationSpace) :
    Option (Nat × VmmReservationSpace) :=
  (findFirstFreeFrom reservationSize space 0 space.entries).map fun found =>
    (found.1, { space with entries := found.2 })

def vmInitializeReservation (space : VmmReservationSpace) (address size : Nat)
    (pageRights : PageRights) (uncacheable : Bool) (fileObject : Option Nat) (index : Nat) :
    Option VmmReservationSpace := do
  assert (address != 0)
  assert (size != 0)
  assert (isAddressAligned address pageSize)
  assert (isAddressAligned size pageSize)
  let noOfPages := size / pageSize
  assert (noOfPages ≤ maxDword)
  let bitmap := bitmapPreinit noOfPages
  assert (bitmap.bufferSize != 0)
  assert (isAddressAligned space.freeBitmapAddress pageSize)
  let bitmapBytes := alignAddressUpper bitmap.bufferSize pageSize
  assert (checkBounds space.freeBitmapAddress bitmapBytes space.reservationList
    space.reservedAreaSize)
  let reservation : VmmReservation := {
    startVa := address
    size := size
    pageRights := pageRights
    state := .used
    uncacheable := uncacheable
    backingFile := fileObject
    commitBitmap := bitmapInit bitmap space.freeBitmapAddress }
  return { space with
    entries := space.entries.set index reservation
    freeBitmapAddress := ptrOffset space.freeBitmapAddress bitmapBytes }

/-- The asserted page interval of a commit or a decommit, relative to the reservation. -/
def pageInterval (address size : Nat) (reservation : VmmReservation) : Option (Nat × Nat) := do
  assert (address != 0)
  assert (size != 0)
  assert (isAddressAligned address pageSize)
  assert (isAddressAligned size pageSize)
  let noOfPages := size / pageSize
  let startIndex := ptrDiff address reservation.startVa / pageSize
  assert (noOfPages ≤ maxDword)
  assert (startIndex ≤ maxDword)
  return (startIndex, noOfPages)

def vmCommitReservation (address size : Nat) (reservation : VmmReservation) :
    Option VmmReservation := do
  let (startIndex, noOfPages) ← pageInterval address size reservation
  return { reservation with
    commitBitmap := bitmapSetBits reservation.commitBitmap startIndex noOfPages }

def vmDecommitReservation (address size : Nat) (reservation : VmmReservation) :
    Option VmmReservation := do
  let (startIndex, noOfPages) ← pageInterval address size reservation
  return { reservation with
    commitBitmap := bitmapClearBits reservation.commitBitmap startIndex noOfPages }

def vmIsVaCommited (reservation : VmmReservation) (address : Nat) : Option Bool := do
  assert (address != 0)
  let pageNo := ptrDiff address reservation.startVa / pageSize
  assert (pageNo ≤ maxDword)
  return reservation.commitBitmap.bits pageNo

def vmChangeVaReservationState (space : VmmReservationSpace) (address size : Nat)
    (change : VaReservationChange) (pageRights : PageRights) (uncacheable : Bool)
    (fileObject : Option Nat) : Option (Status × VmmReservationSpace) := do
  assert (address != 0)
  assert (size != 0)
  assert (isAddressAligned address pageSize)
  assert (isAddressAligned size pageSize)
  match change, ← vmFindReservation reservationSize space address size with
  | .commit, none => return (.memoryIsNotReserved, space)
  | .reserve, some _ => return (.memoryAlreadyReserved, space)
  | .reserve, none =>
    let (index, space) ← vmFindFirstFreeReservation reservationSize space
    let space ← vmInitializeReservation space address size pageRights uncacheable fileObject index
    return (.success, space)
  | .commit, some index =>
    let reservation ← space.entries[index]?
    if reservation.pageRights ≠ pageRights then
      return (.memoryConflictingAccessRights, space)
    else if reservation.uncacheable ≠ uncacheable then
      return (.memoryConflictingCacheability, space)
    else
      let reservation ← vmCommitReservation address size reservation
      return (.success, { space with entries := space.entries.set index reservation })

/-- The page-aligned range an allocation works on, with the bump pointer already moved when
the caller gave no base address; `none` when the base is below the address space. -/
def allocRange (space : VmmReservationSpace) (baseAddress size : Nat) :
    Option (Nat × Nat) × VmmReservationSpace :=
  if baseAddress ≠ 0 then
    let alignedBase := alignAddressLower baseAddress pageSize
    let alignedSize :=
      alignAddressUpper ((size + ptrDiff baseAddress alignedBase) % qwordModulus) pageSize
    if alignedBase < space.startOfVirtualAddressSpace then (none, space)
    else (some (alignedBase, alignedSize), space)
  else
    let alignedSize := alignAddressUpper size pageSize
    let (alignedBase, space) := vmReservationSpaceDetermineNextFreeVirtualAddress space alignedSize
    (some (alignedBase, alignedSize), space)

structure AllocRequest where
  baseAddress : Nat
  size : Nat
  allocType : VmmAllocType
  rights : PageRights
  uncacheable : Bool
  fileObject : Option Nat
  deriving DecidableEq, Repr

/-- `_VmChangeVaReservationState` called only if the allocation type has the flag. -/
def changeIfFlagged (space : VmmReservationSpace) (range : Nat × Nat) (request : AllocRequest)
    (flag : Bool) (change : VaReservationChange) : Option (Status × VmmReservationSpace) :=
  if flag then
    vmChangeVaReservationState reservationSize space range.1 range.2 change request.rights
      request.uncacheable request.fileObject
  else some (.success, space)

/-- The part of `VmReservationSpaceAllocRegion` that holds the reservation lock. -/
def vmReservationSpaceChangeRange (space : VmmReservationSpace) (request : AllocRequest)
    (range : Nat × Nat) : Option (Status × Option (Nat × Nat) × VmmReservationSpace) := do
  let reserved ← changeIfFlagged reservationSize space range request
    request.allocType.reserve .reserve
  if reserved.1 ≠ .success then return (reserved.1, none, reserved.2)
  let committed ← changeIfFlagged reservationSize reserved.2 range request
    request.allocType.commit .commit
  if committed.1 ≠ .success then return (committed.1, none, committed.2)
  return (.success, some range, committed.2)

/-- The status, the range written to `MappedAddress` and `MappedSize` on success, and the
space after the call. -/
def vmReservationSpaceAllocRegion (space : VmmReservationSpace) (request : AllocRequest) :
    Option (Status × Option (Nat × Nat) × VmmReservationSpace) := do
  assert (request.size != 0)
  assert (request.allocType.commit || request.allocType.reserve)
  match allocRange space request.baseAddress request.size with
  | (none, space) => return (.memoryCannotBeReserved, none, space)
  | (some range, space) => vmReservationSpaceChangeRange reservationSize space request range

/-- The aligned range the caller must unmap, the bitmap buffer unmapped and the file closed
by a release, and the space after the call. -/
def vmReservationSpaceFreeRegion (space : VmmReservationSpace) (address : Nat)
    (freeType : VmmFreeType) :
    Option ((Nat × Nat) × Option (VmmReservation) × VmmReservationSpace) := do
  assert (address != 0)
  let index ← ← vmFindReservation reservationSize space address 1
  let reservation ← space.entries[index]?
  match freeType with
  | .release =>
    let space := { space with entries := space.entries.set index vmmReservationZero }
    -- `_VmUninitializeReservation` works on the copy, outside the lock
    assert (isAddressAligned reservation.commitBitmap.bitmapBuffer pageSize)
    return ((reservation.startVa, reservation.size), some reservation, space)
  | .decommit size =>
    assert (size != 0)
    let alignedAddress := alignAddressLower address pageSize
    let alignedSize :=
      alignAddressUpper ((size + ptrDiff address alignedAddress) % qwordModulus) pageSize
    let reservation ← vmDecommitReservation alignedAddress alignedSize reservation
    return ((alignedAddress, alignedSize), none,
      { space with entries := space.entries.set index reservation })

/-- What a page fault is answered with: the rights and cacheability of the mapping, the file
behind it and the offset of the page in that file. -/
structure AccessGrant where
  memoryRights : PageRights
  uncacheable : Bool
  backingFile : Option Nat
  fileOffset : Nat

/-- `metadataAccess` is `NULL == pCpu || pCpu->VmmMemoryAccess`. The inner `none` is `FALSE`. -/
def vmReservationCanAddressBeAccessed (space : VmmReservationSpace) (metadataAccess : Bool)
    (faultingAddress : Nat) (rightsRequested : PageRights) : Option (Option AccessGrant) := do
  if faultingAddress = 0 then return none
  else if checkBounds faultingAddress 1 space.reservationList space.reservedAreaSize then
    if metadataAccess && !rightsRequested.execute then
      return some ⟨pageRightsReadWrite, false, none, 0⟩
    else return none
  else
    match ← vmFindReservation reservationSize space faultingAddress 1 with
    | none => return none
    | some index =>
      let reservation ← space.entries[index]?
      let isVaCommited ← vmIsVaCommited reservation faultingAddress
      let fileOffset := if reservation.backingFile.isSome then
        alignAddressLower (ptrDiff faultingAddress reservation.startVa) pageSize else 0
      if isVaCommited && reservation.pageRights.includes rightsRequested then
        return some ⟨reservation.pageRights, reservation.uncacheable, reservation.backingFile,
          fileOffset⟩
      else return none

end ReservationList

end Hal9000
