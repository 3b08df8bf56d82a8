import Hal9000.Common.Machine
import Hal9000.Framework.LockOrder

/-!
# The locks of the memory manager

The locks that the functions of the memory manager acquire, and the lazily committed memory they
touch in between. A fault on kernel memory takes the kernel's reservation and paging locks. Where it
hits the heap in which released frames are recorded, a paging lock is held already.
-/

namespace Hal9000

inductive MmuHeapIndex
  | normal
  | special
  deriving DecidableEq

/-- The kernel's paging data and reservation space are `none`. -/
inductive MemoryLock (Process : Type)
  | paging (space : Option Process)
  | reservation (space : Option Process)
  | heap (heap : MmuHeapIndex)
  /-- `AllocationLock`. -/
  | allocation
  /-- `PagesLock`. -/
  | pages
  deriving DecidableEq

/-- Lazily committed kernel memory. -/
inductive LazyMemory (Process : Type)
  /-- The reservation list and the commit bitmaps of a space. -/
  | metadata (space : Option Process)
  | heap (heap : MmuHeapIndex)
  deriving DecidableEq

section Programs

variable {Process : Type}

/-- What a function acquires, releases and touches. -/
abbrev LockProgram (Process : Type) := List (LockInstr (MemoryLock Process) (LazyMemory Process))

/-- Some accesses to the same memory. -/
def touch (memory : LazyMemory Process) (accesses : Nat) : LockProgram Process :=
  List.replicate accesses (.touch memory)

def pmmReserveMemoryLocks : LockProgram Process := locked .allocation false []

def pmmReleaseMemoryLocks : LockProgram Process := locked .allocation false []

/-- The paging structures that a mapping touches are always present. -/
def mmuMapMemoryInternalLocks (space : Option Process) : LockProgram Process :=
  locked (.paging space) false []

def mmuMapMemoryExLocks (space : Option Process) : LockProgram Process :=
  locked (.paging space) false []

def mmuAllocateFromPoolWithTagLocks (heap : MmuHeapIndex) (accesses : Nat) : LockProgram Process :=
  locked (.heap heap) false (touch (.heap heap) accesses)

def mmuFreeFromPoolWithTagLocks (heap : MmuHeapIndex) (accesses : Nat) : LockProgram Process :=
  locked (.heap heap) false (touch (.heap heap) accesses)

def mmuReleaseMemoryLocks (accesses : Nat) : LockProgram Process :=
  mmuAllocateFromPoolWithTagLocks .special accesses ++ locked .pages false []

/-- For each frame that is released, the accesses to the heap. -/
def mmuUnmapMemoryExLocks (space : Option Process) (releases : List Nat) : LockProgram Process :=
  locked (.paging space) false (releases.map mmuReleaseMemoryLocks).flatten

def vmReservationCanAddressBeAccessedLocks (space : Option Process) (accesses : Nat) :
    LockProgram Process :=
  locked (.reservation space) true (touch (.metadata space) accesses)

/-- A fault on an address that a reservation of the space describes. -/
def solveReservedFaultLocks (space : Option Process) (accesses : Nat) (solved : Bool) :
    LockProgram Process :=
  vmReservationCanAddressBeAccessedLocks space accesses ++
    if solved then pmmReserveMemoryLocks ++ mmuMapMemoryInternalLocks space else []

/-- `VmmSolvePageFault`, when the kernel touches lazily committed memory. The kernel's own metadata
is not looked up in its reservations. -/
def vmmSolvePageFaultLocks : LazyMemory Process → Nat → LockProgram Process
  | .metadata none, _ => pmmReserveMemoryLocks ++ mmuMapMemoryInternalLocks none
  | .metadata (some _), accesses | .heap _, accesses => solveReservedFaultLocks none accesses true

def vmReservationSpaceAllocRegionLocks (space : Option Process) (accesses : Nat) :
    LockProgram Process :=
  locked (.reservation space) false (touch (.metadata space) accesses)

/-- With the frames of the commit bitmap that a release unmaps. -/
def vmReservationSpaceFreeRegionLocks (space : Option Process) (accesses : Nat)
    (bitmapReleases : Option (List Nat)) : LockProgram Process :=
  locked (.reservation space) false (touch (.metadata space) accesses) ++
    (bitmapReleases.map (mmuUnmapMemoryExLocks none)).getD []

structure FreeLocks where
  accesses : Nat
  /-- The frames of the commit bitmap, for a release. -/
  bitmapReleases : Option (List Nat)
  releases : List Nat

def vmmFreeRegionExLocks (space : Option Process) (free : FreeLocks) : LockProgram Process :=
  vmReservationSpaceFreeRegionLocks space free.accesses free.bitmapReleases ++
    mmuUnmapMemoryExLocks space free.releases

/-- What `VmmAllocRegionEx` maps: nothing, frames it reserves, or the pairs of an MDL. -/
inductive AllocMapping
  | lazy
  | reserved
  | described (numberOfPairs : Nat)

def AllocMapping.locks (space : Option Process) : AllocMapping → LockProgram Process
  | .lazy => []
  | .reserved => pmmReserveMemoryLocks ++ mmuMapMemoryInternalLocks space
  | .described numberOfPairs =>
    (List.replicate numberOfPairs (mmuMapMemoryInternalLocks space)).flatten

/-- When the file behind the region cannot be read, the region is freed. -/
def vmmAllocRegionExLocks (space : Option Process) (accesses : Nat) (mapping : AllocMapping)
    (failure : Option FreeLocks) : LockProgram Process :=
  vmReservationSpaceAllocRegionLocks space accesses ++ mapping.locks space ++
    (failure.map (vmmFreeRegionExLocks space)).getD []

/-- One round of `_MmuZeroWorkerThreadFunction`. -/
def mmuZeroWorkerLocks (accesses : Nat) : LockProgram Process :=
  locked .pages false [] ++ mmuMapMemoryExLocks none ++ pmmReleaseMemoryLocks ++
    mmuUnmapMemoryExLocks none [] ++ mmuFreeFromPoolWithTagLocks .special accesses

inductive MemoryOp (Process : Type)
  | vmmAllocRegionEx (space : Option Process) (accesses : Nat) (mapping : AllocMapping)
      (failure : Option FreeLocks)
  | vmmFreeRegionEx (space : Option Process) (free : FreeLocks)
  | mmuMapMemoryEx (space : Option Process)
  | mmuUnmapMemoryEx (space : Option Process) (releases : List Nat)
  /-- A fault outside of the other functions. -/
  | pageFault (space : Option Process) (accesses : Nat) (solved : Bool)
  | allocateFromPool (heap : MmuHeapIndex) (accesses : Nat)
  | freeFromPool (heap : MmuHeapIndex) (accesses : Nat)
  | zeroWorker (accesses : Nat)

def MemoryOp.program : MemoryOp Process → LockProgram Process
  | .vmmAllocRegionEx space accesses mapping failure =>
    vmmAllocRegionExLocks space accesses mapping failure
  | .vmmFreeRegionEx space free => vmmFreeRegionExLocks space free
  | .mmuMapMemoryEx space => mmuMapMemoryExLocks space
  | .mmuUnmapMemoryEx space releases => mmuUnmapMemoryExLocks space releases
  | .pageFault space accesses solved => solveReservedFaultLocks space accesses solved
  | .allocateFromPool heap accesses => mmuAllocateFromPoolWithTagLocks heap accesses
  | .freeFromPool heap accesses => mmuFreeFromPoolWithTagLocks heap accesses
  | .zeroWorker accesses => mmuZeroWorkerLocks accesses

/-- `RecRwSpinlock` is the lock of paging data. -/
def MemoryLock.reentrant : MemoryLock Process → Bool
  | .paging _ => true
  | .reservation _ | .heap _ | .allocation | .pages => false

def memoryCode : LockCode (MemoryLock Process) (LazyMemory Process) (MemoryOp Process) Nat where
  reentrant := MemoryLock.reentrant
  program := MemoryOp.program
  handler := vmmSolvePageFaultLocks

def MemoryLock.rank : MemoryLock Process → Nat
  | .reservation (some _) | .heap .normal => 0
  | .reservation none => 1
  | .paging _ => 2
  | .heap .special => 3
  | .allocation | .pages => 4

theorem MemoryLock.rank_le (lock : MemoryLock Process) : lock.rank ≤ 4 := by
  unfold MemoryLock.rank
  split <;> omega

/-- The heap in which released frames are recorded must be present. -/
def LazyMemory.mayFault : LazyMemory Process → Bool
  | .heap .special => false
  | .metadata _ | .heap .normal => true

/-- The rank of the first lock of the handler. -/
def LazyMemory.floor : LazyMemory Process → Nat
  | .metadata none => 2
  | .metadata (some _) | .heap _ => 1

def memoryRanks : LockRanks (MemoryLock Process) (LazyMemory Process) where
  rank := MemoryLock.rank
  bound := 4
  rank_le := MemoryLock.rank_le
  faults := LazyMemory.mayFault
  floor := LazyMemory.floor

variable [DecidableEq Process] {least : Nat}

abbrev OrderedLocks (least : Nat) (block : LockProgram Process) : Prop :=
  OrderedBlock memoryRanks least block

theorem touch_ordered {memory : LazyMemory Process} (accesses : Nat)
    (hfloor : memory.mayFault = true → least ≤ memory.floor) :
    OrderedLocks least (touch memory accesses) :=
  OrderedBlock.touches accesses hfloor

theorem pmmReserveMemory_ordered (hle : least ≤ 4) :
    OrderedLocks least (pmmReserveMemoryLocks : LockProgram Process) :=
  OrderedBlock.locked hle .nil

theorem mmuMapMemoryInternal_ordered (space : Option Process) (hle : least ≤ 2) :
    OrderedLocks least (mmuMapMemoryInternalLocks space) :=
  OrderedBlock.locked hle .nil

theorem mmuReleaseMemory_ordered (accesses : Nat) (hle : least ≤ 3) :
    OrderedLocks least (mmuReleaseMemoryLocks accesses : LockProgram Process) := by
  have hheap : OrderedLocks least
      (mmuAllocateFromPoolWithTagLocks .special accesses : LockProgram Process) :=
    OrderedBlock.locked hle (touch_ordered accesses nofun)
  have hpages : OrderedLocks least (locked .pages false [] : LockProgram Process) :=
    OrderedBlock.locked (hle.trans (Nat.le_succ 3)) .nil
  exact hheap.append hpages

theorem mmuUnmapMemoryEx_ordered (space : Option Process) (releases : List Nat) (hle : least ≤ 2) :
    OrderedLocks least (mmuUnmapMemoryExLocks space releases) := by
  refine OrderedBlock.locked hle (OrderedBlock.flatten fun block hblock => ?_)
  obtain ⟨accesses,_,rfl⟩ := List.mem_map.mp hblock
  exact mmuReleaseMemory_ordered accesses (Nat.le_refl 3)

theorem metadata_ordered (space : Option Process) (shared : Bool) (accesses : Nat)
    (hle : least ≤ (MemoryLock.reservation space).rank) :
    OrderedLocks least (locked (.reservation space) shared (touch (.metadata space) accesses)) := by
  refine OrderedBlock.locked hle (touch_ordered accesses fun _ => ?_)
  cases space with
  | none => exact Nat.le_refl 2
  | some process => exact Nat.le_refl 1

theorem solveReservedFault_ordered (space : Option Process) (accesses : Nat) (solved : Bool)
    (hle : least ≤ (MemoryLock.reservation space).rank) :
    OrderedLocks least (solveReservedFaultLocks space accesses solved) := by
  have hrank : (MemoryLock.reservation space).rank ≤ 1 := by
    cases space with
    | none => exact Nat.le_refl 1
    | some process => exact Nat.zero_le 1
  refine (metadata_ordered space true accesses hle).append ?_
  cases solved with
  | false => exact .nil
  | true =>
    exact (pmmReserveMemory_ordered (by omega)).append
      (mmuMapMemoryInternal_ordered space (by omega))

theorem vmmSolvePageFault_ordered (memory : LazyMemory Process) (accesses : Nat) :
    OrderedLocks memory.floor (vmmSolvePageFaultLocks memory accesses) := by
  cases memory with
  | heap heap => exact solveReservedFault_ordered none accesses true (Nat.le_refl 1)
  | metadata space =>
    cases space with
    | some process => exact solveReservedFault_ordered none accesses true (Nat.le_refl 1)
    | none =>
      exact (pmmReserveMemory_ordered (Nat.le_add_right 2 2)).append
        (mmuMapMemoryInternal_ordered none (Nat.le_refl 2))

theorem vmmFreeRegionEx_ordered (space : Option Process) (free : FreeLocks) :
    OrderedLocks 0 (vmmFreeRegionExLocks space free) := by
  refine ((metadata_ordered space false free.accesses (Nat.zero_le _)).append ?_).append
    (mmuUnmapMemoryEx_ordered space free.releases (Nat.zero_le 2))
  cases free.bitmapReleases with
  | none => exact .nil
  | some releases => exact mmuUnmapMemoryEx_ordered none releases (Nat.zero_le 2)

theorem allocMapping_ordered (space : Option Process) (mapping : AllocMapping) :
    OrderedLocks 0 (mapping.locks space) := by
  have hmap := mmuMapMemoryInternal_ordered space (Nat.zero_le 2)
  cases mapping with
  | lazy => exact .nil
  | reserved => exact (pmmReserveMemory_ordered (Nat.zero_le 4)).append hmap
  | described numberOfPairs =>
    refine OrderedBlock.flatten fun block hblock => ?_
    rw [List.eq_of_mem_replicate hblock]
    exact hmap

theorem vmmAllocRegionEx_ordered (space : Option Process) (accesses : Nat) (mapping : AllocMapping)
    (failure : Option FreeLocks) :
    OrderedLocks 0 (vmmAllocRegionExLocks space accesses mapping failure) := by
  refine ((metadata_ordered space false accesses (Nat.zero_le _)).append
    (allocMapping_ordered space mapping)).append ?_
  cases failure with
  | none => exact .nil
  | some free => exact vmmFreeRegionEx_ordered space free

theorem heap_ordered (heap : MmuHeapIndex) (accesses : Nat) :
    OrderedLocks 0 (locked (.heap heap) false (touch (.heap heap) accesses) :
      LockProgram Process) := by
  refine OrderedBlock.locked (Nat.zero_le _) (touch_ordered accesses fun hfaults => ?_)
  cases heap with
  | normal => exact Nat.le_refl 1
  | special => cases hfaults

theorem mmuZeroWorker_ordered (accesses : Nat) :
    OrderedLocks 0 (mmuZeroWorkerLocks accesses : LockProgram Process) := by
  have hpages : OrderedLocks 0 (locked .pages false [] : LockProgram Process) :=
    OrderedBlock.locked (Nat.zero_le _) .nil
  exact (((hpages.append (mmuMapMemoryInternal_ordered none (Nat.zero_le 2))).append
    (pmmReserveMemory_ordered (Nat.zero_le 4))).append
      (mmuUnmapMemoryEx_ordered none [] (Nat.zero_le 2))).append (heap_ordered .special accesses)

theorem memoryCode_ordered : (memoryCode : LockCode _ _ (MemoryOp Process) Nat).Ordered
    memoryRanks where
  program op := by
    cases op with
    | vmmAllocRegionEx space accesses mapping failure =>
      exact vmmAllocRegionEx_ordered space accesses mapping failure
    | vmmFreeRegionEx space free => exact vmmFreeRegionEx_ordered space free
    | mmuMapMemoryEx space => exact mmuMapMemoryInternal_ordered space (Nat.zero_le 2)
    | mmuUnmapMemoryEx space releases =>
      exact mmuUnmapMemoryEx_ordered space releases (Nat.zero_le 2)
    | pageFault space accesses solved =>
      exact solveReservedFault_ordered space accesses solved (Nat.zero_le _)
    | allocateFromPool heap accesses => exact heap_ordered heap accesses
    | freeFromPool heap accesses => exact heap_ordered heap accesses
    | zeroWorker accesses => exact mmuZeroWorker_ordered accesses
  handler memory accesses _ := vmmSolvePageFault_ordered memory accesses

/-- In every run in which the heap of released frames does not fault, no CPUs wait for one
another. -/
theorem memory_locks_no_circularWait {Cpu : Type} [DecidableEq Cpu] [Fintype Cpu]
    {s : LockState Cpu (MemoryLock Process) (LazyMemory Process)}
    (h : (lockSystem (memoryCode : LockCode _ _ (MemoryOp Process) Nat)).ReachableUnder
      (FaultsOnly LazyMemory.mayFault) s) : ¬s.CircularWait :=
  (LockOrdered.of_reachable memoryCode_ordered h).no_circularWait

end Programs

abbrev TwoCpuLocks := LockState (Fin 2) (MemoryLock (Fin 1)) (LazyMemory (Fin 1))

def idleCpus : TwoCpuLocks := ⟨fun _ => [],fun _ => []⟩

/-- CPU 0 releases a frame of the kernel, and CPU 1 reserves a region whose bitmap is not present:
it waits for the kernel's paging lock, and CPU 0 for nothing. -/
theorem memory_locks_no_circularWait_two : ∃ s : TwoCpuLocks,
    (lockSystem (memoryCode : LockCode _ _ (MemoryOp (Fin 1)) Nat)).ReachableUnder
      (FaultsOnly LazyMemory.mayFault) s ∧
    s.Waits 1 0 ∧ s.held 1 = [(.reservation none,false)] ∧ ¬s.CircularWait := by
  obtain ⟨s,hreach,hs⟩ := TransitionSystem.exists_reachable
    (lockSystem (memoryCode : LockCode _ _ (MemoryOp (Fin 1)) Nat))
    (FaultsOnly LazyMemory.mayFault) idleCpus (fun _ => ⟨rfl,rfl⟩)
    [.start 0 (.mmuUnmapMemoryEx none [1]),.run 0,.run 0,.run 0,
      .start 1 (.vmmAllocRegionEx none 1 .lazy none),.run 1,.fault 1 0,.run 1,.run 1]
    (fun s => decide (s.wanted 1 = some (.paging none,false) ∧ s.Blocks 0 (.paging none) false ∧
      s.held 1 = [(.reservation none,false)]))
    (by decide +kernel) (by decide +kernel)
  obtain ⟨hwanted,hblocks,hheld⟩ := of_decide_eq_true hs
  exact ⟨s,hreach,⟨by decide,_,_,hwanted,hblocks⟩,hheld,memory_locks_no_circularWait hreach⟩

/-- The page of the heap is not present either: CPU 0 holds the kernel's paging lock and waits for
the kernel's reservation lock, which CPU 1 holds. -/
theorem memory_locks_circularWait : ∃ s : TwoCpuLocks,
    (lockSystem (memoryCode : LockCode _ _ (MemoryOp (Fin 1)) Nat)).Reachable s ∧
      s.CircularWait := by
  obtain ⟨s,hreach,hs⟩ := TransitionSystem.exists_reachable
    (lockSystem (memoryCode : LockCode _ _ (MemoryOp (Fin 1)) Nat))
    (fun _ _ => True) idleCpus (fun _ => ⟨rfl,rfl⟩)
    [.start 0 (.mmuUnmapMemoryEx none [1]),.run 0,.run 0,.fault 0 0,
      .start 1 (.vmmAllocRegionEx none 1 .lazy none),.run 1,.fault 1 0,.run 1,.run 1]
    (fun s => decide (s.wanted 0 = some (.reservation none,true) ∧
      s.Blocks 1 (.reservation none) true ∧ s.wanted 1 = some (.paging none,false) ∧
      s.Blocks 0 (.paging none) false ∧ s.held 0 ≠ [] ∧ s.held 1 ≠ []))
    (TransitionSystem.runSatisfies_of_forall (fun _ _ => trivial) _ _) (by decide +kernel)
  obtain ⟨hwanted₀,hblocks₀,hwanted₁,hblocks₁,hheld₀,hheld₁⟩ := of_decide_eq_true hs
  refine ⟨s,hreach,Set.univ,⟨0,Set.mem_univ 0⟩,fun cpu _ => ?_⟩
  match cpu with
  | 0 => exact ⟨hheld₀,1,Set.mem_univ 1,by decide,_,_,hwanted₀,hblocks₀⟩
  | 1 => exact ⟨hheld₁,0,Set.mem_univ 0,by decide,_,_,hwanted₁,hblocks₁⟩

end Hal9000
