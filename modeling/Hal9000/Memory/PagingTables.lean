import Hal9000.Memory.ReservationSpace

/-!
# Paging tables

Embedding of the page walk of `vmm.c` and its three callbacks. Paging structures are read
and written through the physical-to-virtual window, so a table is addressed by its physical
address; the entry accessors of the common library write, clear or test one entry.
-/

namespace Hal9000

structure PtEntry where
  present : Bool
  writable : Bool
  executable : Bool
  userAccess : Bool
  globalPage : Bool
  patIndex : Nat
  accessed : Bool
  dirty : Bool
  pageSize : Bool
  physicalAddress : Nat
  deriving DecidableEq, Repr

def ptEntryZero : PtEntry := ⟨false,false,false,false,false,0,false,false,false,0⟩

/-- The tables, by physical address. -/
abbrev PhysicalMemory := Nat → Fin 512 → PtEntry

def PhysicalMemory.writeEntry (memory : PhysicalMemory) (table : Nat) (offset : Fin 512)
    (entry : PtEntry) : PhysicalMemory :=
  Function.update memory table (Function.update (memory table) offset entry)

/-- `memzero` of one table. -/
def PhysicalMemory.zeroTable (memory : PhysicalMemory) (table : Nat) : PhysicalMemory :=
  Function.update memory table fun _ => ptEntryZero

structure PteMapFlags where
  writable : Bool
  executable : Bool
  userAccess : Bool
  globalPage : Bool
  pagingStructure : Bool
  patIndex : Nat

def pteMap (physicalAddress : Nat) (flags : PteMapFlags) : PtEntry where
  present := true
  writable := flags.writable
  executable := flags.executable
  userAccess := flags.userAccess
  globalPage := flags.globalPage
  patIndex := flags.patIndex
  accessed := false
  dirty := false
  pageSize := false
  physicalAddress := physicalAddress

def page2MbSize : Nat := 2 ^ 21

def pteLargePageGetPhysicalAddress (entry : PtEntry) : Nat :=
  alignAddressLower entry.physicalAddress page2MbSize

/-- A CR3 value: the PCID in the low bits, the number of the PML4 frame above them. -/
structure Pml4 where
  raw : Nat

def Pml4.physicalAddress (cr3 : Pml4) : Nat := cr3.raw / pageSize % 2 ^ 40

structure PagingData where
  basePhysicalAddress : Nat
  numberOfFrames : Nat
  currentIndex : Nat
  kernelSpace : Bool
  deriving DecidableEq, Repr

/-- The global part of `VMM_DATA`. -/
structure VmmData where
  writeBackIndex : Nat
  uncacheableIndex : Nat

def pagingTablesFirstLevel : Nat := 1
def pagingTablesLastLevel : Nat := 4

/-- `MASK_PML4_OFFSET` to `MASK_PTE_OFFSET`, by level. -/
def tableOffset (virtualAddress level : Nat) : Fin 512 :=
  Fin.ofNat 512 (virtualAddress / 2 ^ (12 + 9 * (pagingTablesLastLevel - level)))

def tableOffsets (virtualAddress : Nat) : List (Fin 512) :=
  [tableOffset virtualAddress 1,tableOffset virtualAddress 2,tableOffset virtualAddress 3,
    tableOffset virtualAddress 4]

/-- The tables and what a callback writes to its context. -/
structure WalkState (Context : Type) where
  memory : PhysicalMemory
  context : Context

/-- Called with the entry at a table's offset, the virtual address and the level; `false`
ends the walk of the page. -/
abbrev PageWalkCallback (Context : Type) :=
  WalkState Context → Nat → Fin 512 → Nat → Nat → Option (Bool × WalkState Context)

section Walk

variable {Context : Type} (walkCallback : PageWalkCallback Context)

/-- The levels of one page, from the one whose offset is the first of the list. -/
def walkStructures (currentVa : Nat) :
    Nat → List (Fin 512) → Nat → WalkState Context → Option (WalkState Context)
  | _, [], _, s => some s
  | level, offset :: offsets, curStructPa, s => do
    let (continueWalk, s) ← walkCallback s curStructPa offset currentVa level
    if !continueWalk then return s
    assert (level == pagingTablesLastLevel || !(s.memory curStructPa offset).pageSize)
    walkStructures currentVa (level + 1) offsets (s.memory curStructPa offset).physicalAddress s

/-- The next `count` pages, from an offset to the base address on. -/
def walkPages (cr3 : Pml4) (baseAddress : Nat) :
    Nat → Nat → WalkState Context → Option (WalkState Context)
  | 0, _, s => some s
  | count + 1, offset, s => do
    let currentVa := ptrOffset baseAddress offset
    let s ← walkStructures walkCallback currentVa pagingTablesFirstLevel
      (tableOffsets currentVa) (cr3.physicalAddress * pageSize) s
    walkPages cr3 baseAddress count (offset + pageSize) s

def vmWalkPagingTables (cr3 : Pml4) (baseAddress size : Nat) (s : WalkState Context) :
    Option (WalkState Context) :=
  walkPages walkCallback cr3 baseAddress ((size + (pageSize - 1)) / pageSize) 0 s

end Walk

/-- The product is one of 32-bit words. -/
def vmRetrieveNextPhysicalAddressForPagingStructure (pagingData : PagingData) :
    Option (Nat × PagingData) := do
  assert (decide (pagingData.currentIndex < pagingData.numberOfFrames))
  let nextAddress := ptrOffset pagingData.basePhysicalAddress
    (pagingData.currentIndex * pageSize % 2 ^ 32)
  return (nextAddress,{ pagingData with currentIndex := pagingData.currentIndex + 1 })

def pagingStructureFlags (pagingData : PagingData) : PteMapFlags where
  writable := true
  executable := true
  userAccess := !pagingData.kernelSpace
  globalPage := false
  pagingStructure := true
  patIndex := 0

def vmSetupPagingStructure (memory : PhysicalMemory) (pagingData : PagingData) (table : Nat)
    (offset : Fin 512) : Option (WalkState PagingData) := do
  let (physicalAddr,pagingData) ← vmRetrieveNextPhysicalAddressForPagingStructure pagingData
  let memory := memory.writeEntry table offset
    (pteMap physicalAddr (pagingStructureFlags pagingData))
  return ⟨memory.zeroTable physicalAddr,pagingData⟩

/-- The part of the map context no callback writes. -/
structure MapRequest where
  physicalAddressBase : Nat
  virtualAddressBase : Nat
  pageRights : PageRights
  invalidate : Bool
  uncacheable : Bool

def mapFlags (vmmData : VmmData) (request : MapRequest) (kernelSpace : Bool) : PteMapFlags where
  executable := request.pageRights.execute
  writable := request.pageRights.write
  patIndex := if request.uncacheable then vmmData.uncacheableIndex else vmmData.writeBackIndex
  globalPage := kernelSpace
  userAccess := !kernelSpace
  pagingStructure := false

/-- The entry `_VmMapPage` writes for a page. -/
def mapEntry (vmmData : VmmData) (request : MapRequest) (kernelSpace : Bool)
    (virtualAddress : Nat) : PtEntry :=
  pteMap
    (ptrOffset request.physicalAddressBase (ptrDiff virtualAddress request.virtualAddressBase))
    (mapFlags vmmData request kernelSpace)

def assertCallback (virtualAddress pageLevel : Nat) : Option Unit := do
  assert (virtualAddress != 0)
  assert (decide (pagingTablesFirstLevel ≤ pageLevel ∧ pageLevel ≤ pagingTablesLastLevel))

def vmMapPage (vmmData : VmmData) (request : MapRequest) : PageWalkCallback PagingData :=
  fun s table offset virtualAddress pageLevel => do
    assertCallback virtualAddress pageLevel
    if (s.memory table offset).present &&
        !(pageLevel == pagingTablesLastLevel && request.invalidate) then return (true,s)
    else if pageLevel = pagingTablesLastLevel then
      let entry := mapEntry vmmData request s.context.kernelSpace virtualAddress
      return (true,{ s with memory := s.memory.writeEntry table offset entry })
    else
      let s ← vmSetupPagingStructure s.memory s.context table offset
      return (true,s)

def vmmMapMemoryInternal (vmmData : VmmData) (memory : PhysicalMemory) (pagingData : PagingData)
    (physicalAddress size baseAddress : Nat) (pageRights : PageRights)
    (invalidate uncacheable : Bool) : Option (WalkState PagingData) := do
  assert (isAddressAligned physicalAddress pageSize)
  assert (size != 0 && isAddressAligned size pageSize)
  let request : MapRequest :=
    ⟨physicalAddress,baseAddress,pageRights,invalidate,uncacheable⟩
  vmWalkPagingTables (vmMapPage vmmData request) ⟨pagingData.basePhysicalAddress⟩ baseAddress
    size ⟨memory,pagingData⟩

/-- The context is the list of the frames given to `MmuReleaseMemory`. -/
def vmUnmapPage (releaseMemory : Bool) : PageWalkCallback (List Nat) :=
  fun s table offset virtualAddress pageLevel => do
    assertCallback virtualAddress pageLevel
    if !(s.memory table offset).present then return (false,s)
    else if pageLevel = pagingTablesLastLevel then
      let pa := (s.memory table offset).physicalAddress
      let released := if releaseMemory then s.context ++ [pa] else s.context
      return (true,⟨s.memory.writeEntry table offset ptEntryZero,released⟩)
    else return (true,s)

def vmmUnmapMemoryEx (memory : PhysicalMemory) (cr3 : Pml4) (virtualAddress size : Nat)
    (releaseMemory : Bool) : Option (WalkState (List Nat)) :=
  if virtualAddress = 0 ∨ isAddressAligned virtualAddress pageSize = false then
    some ⟨memory,[]⟩
  else if size = 0 ∨ isAddressAligned size pageSize = false then some ⟨memory,[]⟩
  else vmWalkPagingTables (vmUnmapPage releaseMemory) cr3 virtualAddress size ⟨memory,[]⟩

structure PhysAccess where
  physicalAddress : Nat
  accessed : Bool
  dirty : Bool
  deriving DecidableEq, Repr

/-- The `__finally` block of `_VmRetrievePhyAccess` for the entry that maps the page. -/
def retrieveAccess (clearAccessed clearDirty : Bool) (s : WalkState PhysAccess) (table : Nat)
    (offset : Fin 512) (physicalAddress : Nat) : WalkState PhysAccess :=
  let entry := s.memory table offset
  let cleared := { entry with
    accessed := !clearAccessed && entry.accessed
    dirty := !clearDirty && entry.dirty }
  ⟨s.memory.writeEntry table offset cleared,⟨physicalAddress,entry.accessed,entry.dirty⟩⟩

def vmRetrievePhyAccess (clearAccessed clearDirty : Bool) : PageWalkCallback PhysAccess :=
  fun s table offset virtualAddress pageLevel => do
    assertCallback virtualAddress pageLevel
    let entry := s.memory table offset
    if !entry.present then
      return (false,{ s with context := { s.context with physicalAddress := 0 } })
    else if pageLevel < pagingTablesLastLevel - 1 then return (true,s)
    else if pageLevel = pagingTablesLastLevel - 1 then
      if entry.pageSize then
        let pa := ptrOffset (pteLargePageGetPhysicalAddress entry)
          (addressOffset virtualAddress page2MbSize)
        return (false,retrieveAccess clearAccessed clearDirty s table offset pa)
      else return (true,s)
    else
      return (false,retrieveAccess clearAccessed clearDirty s table offset entry.physicalAddress)

/-- The flags say whether the caller asks for, and thereby clears, the access bits. -/
def vmmGetPhysicalAddressEx (memory : PhysicalMemory) (cr3 : Pml4) (virtualAddress : Nat)
    (accessed dirty : Bool) : Option (WalkState PhysAccess) := do
  assert (virtualAddress != 0)
  assert (isAddressAligned virtualAddress pageSize)
  vmWalkPagingTables (vmRetrievePhyAccess accessed dirty) cr3 virtualAddress pageSize
    ⟨memory,⟨0,false,false⟩⟩

def vmmGetPhysicalAddress (memory : PhysicalMemory) (cr3 : Pml4) (virtualAddress : Nat) :
    Option Nat :=
  (vmmGetPhysicalAddressEx memory cr3 virtualAddress false false).map
    fun s => s.context.physicalAddress

end Hal9000
