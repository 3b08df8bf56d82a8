import Hal9000.Framework.TransitionSystem
import Hal9000.Memory.PagingCorrect

/-!
# The kernel half of the process paging tables

A process gets a copy of the upper half of the kernel's PML4 when its paging tables are
created. The copy is made behind the release of the lock of the kernel's tables, entry by entry.
Below the PML4 the two share their tables, so the translations agree for as long as no kernel
mapping adds a top-level entry that has been copied.
-/

namespace Hal9000

open RadixTree

/-- `PML4_OFFSET_OF_KERNEL_STRUCTURES`, in bytes. -/
def pml4OffsetOfKernelStructures : Nat := pageSize / 2

/-- `PML4_NO_OF_KERNEL_ENTRIES`, the number of bytes that are copied. -/
def pml4NoOfKernelEntries : Nat := pageSize - pml4OffsetOfKernelStructures

def ptEntrySize : Nat := 8

def firstKernelEntry : Nat := pml4OffsetOfKernelStructures / ptEntrySize

def noOfKernelEntries : Nat := pml4NoOfKernelEntries / ptEntrySize

/-- An entry of the upper half, counted from its first. -/
def kernelEntry (k : Nat) : Fin 512 := Fin.ofNat 512 (firstKernelEntry + k)

/-- A PML4 entry of the half that kernel addresses select. -/
def IsKernelIndex (offset : Fin 512) : Prop := 256 ≤ offset.val

instance (offset : Fin 512) : Decidable (IsKernelIndex offset) :=
  inferInstanceAs (Decidable (_ ≤ _))

/-- Paging tables that `_MmuCreatePagingTables` has mapped and not yet returned. -/
structure TablesCreation where
  pagingData : PagingData
  /-- The entries of the upper half that `memcpy` has copied. -/
  copied : Nat
  /-- The entry it has loaded and not yet stored. -/
  loaded : Option PtEntry

structure KernelHalfState where
  memory : PhysicalMemory
  kernel : PagingData
  processes : List PagingData
  creating : List TablesCreation

inductive KernelHalfAction
  | mapMemory (physicalAddress size baseAddress : Nat) (pageRights : PageRights)
      (invalidate uncacheable : Bool)
  | unmapMemory (virtualAddress size : Nat) (releaseMemory : Bool)
  /-- `_MmuCreatePagingTables` up to the release of the lock. -/
  | createPagingTables (basePa : Option Nat) (framesForPagingStructures : Nat)
  | loadKernelEntry (creation : Nat)
  | storeKernelEntry (creation : Nat)
  /-- `_MmuCreatePagingTables` returns its tables. -/
  | returnPagingTables (creation : Nat)
  | destroyPagingTables (process : Nat)

section KernelHalf

variable (vmmData : VmmData) (virtualToPhysicalOffset : Nat)

def pa2va (physicalAddress : Nat) : Nat := ptrOffset physicalAddress virtualToPhysicalOffset

/-- `VmmSetupPageTables` for tables that are mapped in those of the kernel: the kernel's tables
and its paging data after the mapping, and the new paging data. -/
def vmmSetupPageTables (memory : PhysicalMemory) (pagingDataWhereToMap : PagingData)
    (basePhysicalAddress framesReserved : Nat) (kernelStructures : Bool) :
    Option (WalkState (PagingData × PagingData)) := do
  assert (basePhysicalAddress != 0)
  assert (framesReserved != 0)
  assert (decide (framesReserved ≤ maxDword / pageSize))
  let s ← vmmMapMemoryInternal vmmData memory pagingDataWhereToMap basePhysicalAddress
    (framesReserved * pageSize) (pa2va virtualToPhysicalOffset basePhysicalAddress)
    pageRightsReadWrite true false
  return ⟨s.memory.zeroTable basePhysicalAddress,s.context,
    ⟨basePhysicalAddress,framesReserved,1,kernelStructures⟩⟩

/-- The paging tables of the processes alive, whose entries are all copied, and of those under
creation. -/
def KernelHalfState.copies (s : KernelHalfState) : List TablesCreation :=
  s.processes.map (fun pagingData => ⟨pagingData,noOfKernelEntries,none⟩) ++ s.creating

/-- The frames `PmmReserveMemory` returns are in the pool of no paging tables. -/
def IsFreshPool (s : KernelHalfState) (basePa frames : Nat) : Prop :=
  basePa % pageSize = 0 ∧ basePa + frames * pageSize ≤ 2 ^ 52 ∧
    ∀ pagingData ∈ s.kernel :: s.copies.map TablesCreation.pagingData,
      basePa + frames * pageSize ≤ pagingData.basePhysicalAddress ∨
        pagingData.frame pagingData.numberOfFrames ≤ basePa

instance (s : KernelHalfState) (basePa frames : Nat) : Decidable (IsFreshPool s basePa frames) :=
  inferInstanceAs (Decidable (_ ∧ _ ∧ _))

/-- `NULL` from `PmmReserveMemory` fails the creation. -/
def mmuCreatePagingTables (s : KernelHalfState) (basePa : Option Nat)
    (framesForPagingStructures : Nat) : Option KernelHalfState :=
  match basePa with
  | none => some s
  | some basePa =>
    if IsFreshPool s basePa framesForPagingStructures then do
      let tables ← vmmSetupPageTables vmmData virtualToPhysicalOffset s.memory s.kernel basePa
        framesForPagingStructures false
      return { s with
        memory := tables.memory
        kernel := tables.context.1
        creating := ⟨tables.context.2,0,none⟩ :: s.creating }
    else none

/-- `memcpy` reads the next entry of the kernel's PML4. -/
def loadKernelEntry (s : KernelHalfState) (creation : Nat) : Option KernelHalfState := do
  let tables ← s.creating[creation]?
  if tables.loaded.isNone ∧ tables.copied < noOfKernelEntries then
    return { s with creating := s.creating.set creation { tables with
      loaded := some (s.memory s.kernel.basePhysicalAddress (kernelEntry tables.copied)) } }
  else none

/-- `memcpy` writes the entry it has read. -/
def storeKernelEntry (s : KernelHalfState) (creation : Nat) : Option KernelHalfState := do
  let tables ← s.creating[creation]?
  let entry ← tables.loaded
  return { s with
    memory := s.memory.writeEntry tables.pagingData.basePhysicalAddress
      (kernelEntry tables.copied) entry
    creating := s.creating.set creation { tables with copied := tables.copied + 1, loaded := none } }

def returnPagingTables (s : KernelHalfState) (creation : Nat) : Option KernelHalfState := do
  let tables ← s.creating[creation]?
  if tables.loaded.isNone ∧ tables.copied = noOfKernelEntries then
    return { s with
      processes := tables.pagingData :: s.processes
      creating := s.creating.eraseIdx creation }
  else none

/-- The aligned size is a 32-bit word. -/
def mmuUnmapMemoryEx (memory : PhysicalMemory) (pagingData : PagingData)
    (virtualAddress size : Nat) (releaseMemory : Bool) : Option (WalkState (List Nat)) := do
  assert (virtualAddress != 0)
  assert (size != 0)
  let alignedVirtualAddress := alignAddressLower virtualAddress pageSize
  let alignmentDifferences := (virtualAddress - alignedVirtualAddress) % 2 ^ 32
  let alignedSize :=
    alignAddressUpper ((size + alignmentDifferences) % qwordModulus) pageSize % 2 ^ 32
  vmmUnmapMemoryEx memory ⟨pagingData.basePhysicalAddress⟩ alignedVirtualAddress alignedSize
    releaseMemory

def mmuDestroyPagingTables (s : KernelHalfState) (process : Nat) : Option KernelHalfState := do
  let pagingData ← s.processes[process]?
  let unmapped ← mmuUnmapMemoryEx s.memory s.kernel
    (pa2va virtualToPhysicalOffset pagingData.basePhysicalAddress)
    (pagingData.numberOfFrames * pageSize % 2 ^ 32) true
  return { s with memory := unmapped.memory, processes := s.processes.eraseIdx process }

/-- The paging tables of a system from the zeroed PML4 of its kernel on. -/
def kernelHalfSystem : TransitionSystem KernelHalfState KernelHalfAction where
  init s := s.kernel.WellFormed ∧ s.kernel.currentIndex = 1 ∧ s.kernel.kernelSpace = true ∧
    (∀ offset, s.memory s.kernel.basePhysicalAddress offset = ptEntryZero) ∧
    s.processes = [] ∧ s.creating = []
  step s
    | .mapMemory physicalAddress size baseAddress pageRights invalidate uncacheable =>
      (vmmMapMemoryInternal vmmData s.memory s.kernel physicalAddress size baseAddress pageRights
        invalidate uncacheable).map fun mapped =>
          { s with memory := mapped.memory, kernel := mapped.context }
    | .unmapMemory virtualAddress size releaseMemory =>
      (vmmUnmapMemoryEx s.memory ⟨s.kernel.basePhysicalAddress⟩ virtualAddress size
        releaseMemory).map fun unmapped => { s with memory := unmapped.memory }
    | .createPagingTables basePa framesForPagingStructures =>
      mmuCreatePagingTables vmmData virtualToPhysicalOffset s basePa framesForPagingStructures
    | .loadKernelEntry creation => loadKernelEntry s creation
    | .storeKernelEntry creation => storeKernelEntry s creation
    | .returnPagingTables creation => returnPagingTables s creation
    | .destroyPagingTables process => mmuDestroyPagingTables virtualToPhysicalOffset s process

/-- The entry is copied, or it has been read for it. -/
def TablesCreation.HasEntry (tables : TablesCreation) (offset : Fin 512) : Prop :=
  IsKernelIndex offset ∧ (offset.val < firstKernelEntry + tables.copied ∨
    offset = kernelEntry tables.copied ∧ tables.loaded.isSome = true)

instance (tables : TablesCreation) (offset : Fin 512) : Decidable (tables.HasEntry offset) :=
  inferInstanceAs (Decidable (_ ∧ (_ ∨ _)))

/-- Every kernel page of the range has its top-level entry, or that entry is in no copy. -/
def TopLevelPresent (s : KernelHalfState) (baseAddress size : Nat) : Prop :=
  ∀ k, k < (size + (pageSize - 1)) / pageSize →
    (∃ tables ∈ s.copies, tables.HasEntry (tableOffset (ptrOffset baseAddress (k * pageSize)) 1)) →
      (s.memory s.kernel.basePhysicalAddress
        (tableOffset (ptrOffset baseAddress (k * pageSize)) 1)).present = true

/-- The step adds no entry to the kernel's PML4 that a process has copied. -/
def KeepsTopLevel (s : KernelHalfState) : KernelHalfAction → Prop
  | .mapMemory _ size baseAddress _ _ _ => TopLevelPresent s baseAddress size
  | .createPagingTables (some basePa) frames =>
    TopLevelPresent s (pa2va virtualToPhysicalOffset basePa) (frames * pageSize)
  | _ => True

instance (s : KernelHalfState) (baseAddress size : Nat) :
    Decidable (TopLevelPresent s baseAddress size) :=
  inferInstanceAs (Decidable (∀ k, k < (size + (pageSize - 1)) / pageSize → _ → _))

instance (s : KernelHalfState) :
    ∀ action, Decidable (KeepsTopLevel virtualToPhysicalOffset s action)
  | .mapMemory _ _ _ _ _ _ => inferInstanceAs (Decidable (TopLevelPresent _ _ _))
  | .unmapMemory _ _ _ => .isTrue trivial
  | .createPagingTables (some _) _ => inferInstanceAs (Decidable (TopLevelPresent _ _ _))
  | .createPagingTables none _ => .isTrue trivial
  | .loadKernelEntry _ => .isTrue trivial
  | .storeKernelEntry _ => .isTrue trivial
  | .returnPagingTables _ => .isTrue trivial
  | .destroyPagingTables _ => .isTrue trivial

end KernelHalf

/-- Every paging structure is a frame of the pool. -/
def TablesInPool (memory : PhysicalMemory) (pagingData : PagingData) : Prop :=
  ∀ path table, path.length ≤ 3 →
    memory.tableAt pagingData.basePhysicalAddress path = some table →
    ∃ k, k < pagingData.numberOfFrames ∧ table = pagingData.frame k

/-- The address is no frame of the pool. -/
def OutsidePool (pagingData : PagingData) (address : Nat) : Prop :=
  ∀ k, k < pagingData.numberOfFrames → address ≠ pagingData.frame k

/-- What a walk through kernel tables keeps: the tree, what lies outside its pool, and the
chosen entries of the root. -/
structure KernelKeeps (memory : PhysicalMemory) (pagingData : PagingData)
    (chosen : Fin 512 → Prop) (memory' : PhysicalMemory) (pagingData' : PagingData) : Prop where
  tree : PagingTree memory' pagingData'
  pool : TablesInPool memory' pagingData'
  same : pagingData.SamePool pagingData'
  rows : ∀ table, OutsidePool pagingData table → memory' table = memory table
  top : ∀ offset, chosen offset →
    memory' pagingData.basePhysicalAddress offset = memory pagingData.basePhysicalAddress offset

section Keeps

variable {memory memory' : PhysicalMemory} {pagingData pagingData' : PagingData}
  {chosen : Fin 512 → Prop} {q : List (Fin 512)} {table : Nat} {offset : Fin 512}

private theorem table_ne_root (h : PagingTree memory pagingData) (hq : q.length ≤ 3)
    (hne : q ≠ []) (htable : memory.tableAt pagingData.basePhysicalAddress q = some table) :
    table ≠ pagingData.basePhysicalAddress := by
  rintro rfl
  exact hne (h.uniquePaths q [] _ hq (by simp) htable rfl)

private theorem not_outsidePool (hpool : TablesInPool memory pagingData) (hq : q.length ≤ 3)
    (htable : memory.tableAt pagingData.basePhysicalAddress q = some table) {address : Nat}
    (hout : OutsidePool pagingData address) : address ≠ table := by
  obtain ⟨k,hk,rfl⟩ := hpool q table hq htable
  exact hout k hk

private theorem writeEntry_keeps (h : KernelKeeps memory pagingData chosen memory' pagingData')
    (hq : q.length = 3)
    (htable : memory'.tableAt pagingData.basePhysicalAddress q = some table) (entry : PtEntry) :
    KernelKeeps memory pagingData chosen (memory'.writeEntry table offset entry) pagingData' := by
  have hbase : pagingData'.basePhysicalAddress = pagingData.basePhysicalAddress := by rw [h.same]
  have hframes : pagingData'.numberOfFrames = pagingData.numberOfFrames := by rw [h.same]
  rw [← hbase] at htable
  have htables := (writeEntry_lastLevel h.tree hq htable offset entry).1
  have hother : ∀ address, address ≠ table →
      memory'.writeEntry table offset entry address = memory' address :=
    fun address hne => Function.update_of_ne hne _ _
  refine ⟨h.tree.congr htables,?_,h.same,?_,?_⟩
  · intro path m hpath hm
    exact h.pool path m hpath ((htables path hpath).symm.trans hm)
  · intro address hout
    have hout' : OutsidePool pagingData' address := by
      intro k hk
      rw [h.same]
      exact hout k (hframes ▸ hk)
    rw [hother address (not_outsidePool h.pool (by omega) htable hout')]
    exact h.rows address hout
  · intro i hi
    have hne : q ≠ [] := by
      rintro rfl
      simp at hq
    rw [hother _ (by rw [← hbase]; exact (table_ne_root h.tree (by omega) hne htable).symm)]
    exact h.top i hi

private theorem linkNext_keeps (h : KernelKeeps memory pagingData chosen memory' pagingData')
    (hroom : pagingData'.currentIndex < pagingData'.numberOfFrames) (hq : q.length < 3)
    (htable : memory'.tableAt pagingData.basePhysicalAddress q = some table)
    (hpresent : (memory' table offset).present = false)
    (hchosen : q = [] → chosen offset →
      (memory pagingData.basePhysicalAddress offset).present = true) :
    KernelKeeps memory pagingData chosen (linkNext memory' pagingData' table offset)
      pagingData'.next := by
  have hbase : pagingData'.basePhysicalAddress = pagingData.basePhysicalAddress := by rw [h.same]
  have hframes : pagingData'.numberOfFrames = pagingData.numberOfFrames := by rw [h.same]
  rw [← hbase] at htable
  have hempty := slot_of_not_present hpresent
  refine ⟨linkNext_pagingTree h.tree hroom hq htable hempty,?_,?_,?_,?_⟩
  · intro path m hpath hm
    rcases linkNext_tableAt_cases h.tree hroom hq htable hpath hm with ⟨_,rfl⟩ | hold
    · exact ⟨_,hroom,rfl⟩
    · exact h.pool path m hpath hold
  · rw [PagingData.SamePool,PagingData.next,h.same]
  · intro address hout
    have hout' : OutsidePool pagingData' address := by
      intro k hk
      rw [h.same]
      exact hout k (hframes ▸ hk)
    rw [← h.rows address hout]
    funext i
    apply linkNext_entry (hout' _ hroom)
    rintro ⟨heq,_⟩
    exact not_outsidePool h.pool (by omega) htable hout' heq
  · intro i hi
    rw [← h.top i hi,← hbase]
    apply linkNext_entry
    · intro heq
      exact h.tree.spare_unreached le_rfl hroom [] (by simp) (by rw [← heq]; rfl)
    · rintro ⟨heq,rfl⟩
      by_cases hroot : q = []
      · have hold := h.top i hi
        rw [← hbase,heq] at hold
        rw [hold,← heq,hbase,hchosen hroot hi] at hpresent
        cases hpresent
      · exact table_ne_root h.tree (by omega) hroot htable heq.symm

private theorem mapPage_keeps (vmmData : VmmData) (request : MapRequest) {virtualAddress : Nat}
    (hchosen : chosen (tableOffset virtualAddress 1) →
      (memory pagingData.basePhysicalAddress (tableOffset virtualAddress 1)).present = true) :
    KeepsOnPath (vmMapPage vmmData request) pagingData.basePhysicalAddress virtualAddress
      (fun s => KernelKeeps memory pagingData chosen s.memory s.context) := by
  intro s s' continueWalk q table offset rest h hsplit htable hstep
  have hlen := length_of_split hsplit
  have hbase : s.context.basePhysicalAddress = pagingData.basePhysicalAddress := by rw [h.same]
  obtain ⟨_,⟨hpresent,_,rfl⟩ | ⟨hlast,_,rfl⟩ | ⟨hlevel,hpresent,hsetup⟩⟩ := vmMapPage_cases hstep
  · exact ⟨h,fun _ _ => ⟨htable,hpresent⟩⟩
  · have hq : q.length = 3 := by omega
    refine ⟨writeEntry_keeps h hq htable _,fun _ hrest => ?_⟩
    exact absurd (List.length_eq_zero_iff.mp (by omega)) hrest
  · have hroom := room_of_setup hsetup
    have htable' : s.memory.tableAt s.context.basePhysicalAddress q = some table := by
      rw [hbase]
      exact htable
    rw [vmSetupPagingStructure_eq h.tree hroom (by omega) htable'] at hsetup
    obtain rfl := Option.some.inj hsetup
    refine ⟨linkNext_keeps h hroom (by omega) htable hpresent ?_,fun _ _ => ⟨?_,?_⟩⟩
    · rintro rfl
      have hoffset : offset = tableOffset virtualAddress 1 := by
        simpa [tableOffsets] using congrArg List.head? hsplit
      rw [hoffset]
      exact hchosen
    · have hkept : (linkNext s.memory s.context table offset).tableAt
          s.context.basePhysicalAddress q = some table :=
        linkNext_tableAt_mono h.tree hroom (by omega) htable' (slot_of_not_present hpresent)
          (by omega) htable'
      rw [hbase] at hkept
      exact hkept
    · have hentry : linkNext s.memory s.context table offset table offset =
          pteMap (s.context.frame s.context.currentIndex) (pagingStructureFlags s.context) :=
        write_same ..
      simp only [hentry]
      rfl

private theorem unmapPage_keeps (releaseMemory : Bool) (virtualAddress : Nat) :
    KeepsOnPath (vmUnmapPage releaseMemory) pagingData.basePhysicalAddress virtualAddress
      (fun s => KernelKeeps memory pagingData chosen s.memory pagingData') := by
  intro s s' continueWalk q table offset rest h hsplit htable hstep
  have hlen := length_of_split hsplit
  rcases vmUnmapPage_cases hstep with ⟨_,rfl,rfl⟩ | ⟨hpresent,_,⟨hlast,rfl⟩ | ⟨_,rfl⟩⟩
  · exact ⟨h,fun hgoes => absurd hgoes (by simp)⟩
  · have hq : q.length = 3 := by omega
    have hkeeps : KernelKeeps memory pagingData chosen
        (s.memory.writeEntry table offset ptEntryZero) pagingData' :=
      writeEntry_keeps h hq htable ptEntryZero
    refine ⟨hkeeps,fun _ hrest => ?_⟩
    exact absurd (List.length_eq_zero_iff.mp (by omega)) hrest
  · exact ⟨h,fun _ _ => ⟨htable,hpresent⟩⟩

private theorem kernelKeeps_refl (chosen : Fin 512 → Prop) (htree : PagingTree memory pagingData)
    (hpool : TablesInPool memory pagingData) :
    KernelKeeps memory pagingData chosen memory pagingData :=
  ⟨htree,hpool,rfl,fun _ _ => rfl,fun _ _ => rfl⟩

theorem vmmMapMemoryInternal_keeps {vmmData : VmmData} (chosen : Fin 512 → Prop)
    (htree : PagingTree memory pagingData) (hpool : TablesInPool memory pagingData) {physicalAddress size baseAddress : Nat}
    {pageRights : PageRights} {invalidate uncacheable : Bool} {s : WalkState PagingData}
    (hchosen : ∀ k, k < (size + (pageSize - 1)) / pageSize →
      chosen (tableOffset (ptrOffset baseAddress (k * pageSize)) 1) →
        (memory pagingData.basePhysicalAddress
          (tableOffset (ptrOffset baseAddress (k * pageSize)) 1)).present = true)
    (h : vmmMapMemoryInternal vmmData memory pagingData physicalAddress size baseAddress
      pageRights invalidate uncacheable = some s) :
    KernelKeeps memory pagingData chosen s.memory s.context := by
  simp only [vmmMapMemoryInternal,Option.bind_eq_bind,Option.bind_eq_some_iff] at h
  obtain ⟨_,_,_,_,h⟩ := h
  exact vmWalkPagingTables_keeps htree.wellFormed.cr3_table
    (fun k hk => mapPage_keeps vmmData _ (hchosen k hk)) (kernelKeeps_refl chosen htree hpool) h

theorem vmmUnmapMemoryEx_keeps (chosen : Fin 512 → Prop) (htree : PagingTree memory pagingData)
    (hpool : TablesInPool memory pagingData) {virtualAddress size : Nat} {releaseMemory : Bool}
    {s : WalkState (List Nat)}
    (h : vmmUnmapMemoryEx memory ⟨pagingData.basePhysicalAddress⟩ virtualAddress size
      releaseMemory = some s) :
    KernelKeeps memory pagingData chosen s.memory pagingData := by
  have hstart := kernelKeeps_refl chosen htree hpool
  unfold vmmUnmapMemoryEx at h
  split at h
  · rw [← Option.some.inj h]
    exact hstart
  · split at h
    · rw [← Option.some.inj h]
      exact hstart
    · exact vmWalkPagingTables_keeps htree.wellFormed.cr3_table
        (fun k _ => unmapPage_keeps releaseMemory _) hstart h

end Keeps

section Runs

variable {vmmData : VmmData} {virtualToPhysicalOffset : Nat}

/-- Paging tables that have the kernel's entries as far as they are copied. -/
structure SharesKernelHalf (memory : PhysicalMemory) (kernel : PagingData)
    (tables : TablesCreation) : Prop where
  wellFormed : tables.pagingData.WellFormed
  apart : OutsidePool kernel tables.pagingData.basePhysicalAddress
  stored : ∀ offset, IsKernelIndex offset → offset.val < firstKernelEntry + tables.copied →
    memory tables.pagingData.basePhysicalAddress offset = memory kernel.basePhysicalAddress offset
  loaded : ∀ entry, tables.loaded = some entry → tables.copied < noOfKernelEntries ∧
    entry = memory kernel.basePhysicalAddress (kernelEntry tables.copied)

/-- What every run keeps that adds no top-level entry that has been copied. -/
structure KernelHalfInv (s : KernelHalfState) : Prop where
  tree : PagingTree s.memory s.kernel
  pool : TablesInPool s.memory s.kernel
  shared : ∀ tables ∈ s.copies, SharesKernelHalf s.memory s.kernel tables

theorem kernelEntry_val {k : Nat} (hk : k < noOfKernelEntries) :
    (kernelEntry k).val = firstKernelEntry + k := by
  have hlt : firstKernelEntry + k < 512 := by
    simp only [noOfKernelEntries,firstKernelEntry,pml4NoOfKernelEntries,
      pml4OffsetOfKernelStructures,ptEntrySize,pageSize] at *
    omega
  exact Nat.mod_eq_of_lt hlt

theorem isKernelIndex_kernelEntry {k : Nat} (hk : k < noOfKernelEntries) :
    IsKernelIndex (kernelEntry k) := by
  rw [IsKernelIndex,kernelEntry_val hk]
  exact Nat.le_add_right ..

section Inv

variable {s : KernelHalfState} {tables : TablesCreation}

private theorem KernelHalfInv.of_keeps (h : KernelHalfInv s) {memory' : PhysicalMemory}
    {kernel' : PagingData} (hkeeps : KernelKeeps s.memory s.kernel
      (fun offset => ∃ tables ∈ s.copies, tables.HasEntry offset) memory' kernel') :
    KernelHalfInv { s with memory := memory', kernel := kernel' } := by
  have hbase : kernel'.basePhysicalAddress = s.kernel.basePhysicalAddress := by
    rw [hkeeps.same]
  refine ⟨hkeeps.tree,hkeeps.pool,?_⟩
  intro tables htables
  change SharesKernelHalf memory' kernel' tables
  have hold := h.shared tables htables
  have hrow := hkeeps.rows _ hold.apart
  refine ⟨hold.wellFormed,?_,?_,?_⟩
  · rw [hkeeps.same]
    exact hold.apart
  · intro offset hindex hcopied
    rw [hbase,hrow,hkeeps.top offset ⟨tables,htables,hindex,Or.inl hcopied⟩]
    exact hold.stored offset hindex hcopied
  · intro entry hloaded
    obtain ⟨hlt,hentry⟩ := hold.loaded entry hloaded
    have hheld : tables.HasEntry (kernelEntry tables.copied) :=
      ⟨isKernelIndex_kernelEntry hlt,Or.inr ⟨rfl,by rw [hloaded]; rfl⟩⟩
    rw [hbase,hkeeps.top _ ⟨tables,htables,hheld⟩]
    exact ⟨hlt,hentry⟩

private theorem KernelHalfInv.map (h : KernelHalfInv s)
    {physicalAddress size baseAddress : Nat} {pageRights : PageRights}
    {invalidate uncacheable : Bool} {mapped : WalkState PagingData}
    (htop : TopLevelPresent s baseAddress size)
    (hmap : vmmMapMemoryInternal vmmData s.memory s.kernel physicalAddress size baseAddress
      pageRights invalidate uncacheable = some mapped) :
    s.kernel.SamePool mapped.context ∧
      KernelHalfInv { s with memory := mapped.memory, kernel := mapped.context } := by
  have hkeeps := vmmMapMemoryInternal_keeps
    (fun offset => ∃ tables ∈ s.copies, tables.HasEntry offset) h.tree h.pool htop hmap
  exact ⟨hkeeps.same,h.of_keeps hkeeps⟩

private theorem KernelHalfInv.outside (h : KernelHalfInv s) {address : Nat}
    (houtside : OutsidePool s.kernel address) {memory' : PhysicalMemory}
    (hrows : ∀ table, table ≠ address → memory' table = s.memory table) :
    PagingTree memory' s.kernel ∧ TablesInPool memory' s.kernel ∧
      memory' s.kernel.basePhysicalAddress = s.memory s.kernel.basePhysicalAddress := by
  have hkernel : s.kernel.basePhysicalAddress ≠ address := by
    have hused := h.tree.wellFormed
    have hzero := houtside 0 (Nat.lt_of_lt_of_le hused.root_used hused.used_le)
    simpa [PagingData.frame] using hzero.symm
  have hunreached : Unreached PtEntry.slot s.memory s.kernel.basePhysicalAddress 3 address := by
    intro path hpath hm
    obtain ⟨k,hk,heq⟩ := h.pool path _ hpath hm
    exact houtside k hk heq
  have htables : ∀ path, path.length ≤ 3 →
      memory'.tableAt s.kernel.basePhysicalAddress path =
        s.memory.tableAt s.kernel.basePhysicalAddress path := by
    intro path hpath
    have hupdate : memory' = Function.update s.memory address (memory' address) := by
      funext table
      by_cases heq : table = address
      · rw [heq,Function.update_self]
      · rw [Function.update_of_ne heq,hrows table heq]
    rw [hupdate]
    exact follow_congr (update_agreesAlong hunreached (by omega))
  refine ⟨h.tree.congr htables,?_,hrows _ hkernel⟩
  intro path table hpath hm
  exact h.pool path table hpath ((htables path hpath).symm.trans hm)

private theorem KernelHalfInv.addTables (h : KernelHalfInv s) (process : PagingData)
    (hwf : process.WellFormed) (houtside : OutsidePool s.kernel process.basePhysicalAddress)
    (hnew : ∀ tables ∈ s.copies,
      tables.pagingData.basePhysicalAddress ≠ process.basePhysicalAddress) :
    KernelHalfInv { s with
      memory := s.memory.zeroTable process.basePhysicalAddress
      creating := ⟨process,0,none⟩ :: s.creating } := by
  have hrows : ∀ table, table ≠ process.basePhysicalAddress →
      s.memory.zeroTable process.basePhysicalAddress table = s.memory table :=
    fun table hne => Function.update_of_ne hne _ _
  obtain ⟨htree,hpool,hroot⟩ := h.outside houtside hrows
  refine ⟨htree,hpool,?_⟩
  intro tables htables
  change SharesKernelHalf (s.memory.zeroTable process.basePhysicalAddress) s.kernel tables
  have hcases : tables = ⟨process,0,none⟩ ∨ tables ∈ s.copies := by
    simp only [KernelHalfState.copies,List.mem_append,List.mem_cons] at htables ⊢
    tauto
  rcases hcases with rfl | hold
  · refine ⟨hwf,houtside,?_,?_⟩
    · intro offset hindex hlt
      exact absurd hlt (Nat.not_lt.mpr hindex)
    · intro entry hloaded
      cases hloaded
  · obtain ⟨hwf',hout',hstored,hloaded⟩ := h.shared tables hold
    refine ⟨hwf',hout',?_,?_⟩
    · intro offset hindex hcopied
      rw [hrows _ (hnew tables hold),hroot]
      exact hstored offset hindex hcopied
    · rw [hroot]
      exact hloaded

private theorem KernelHalfInv.create {s' : KernelHalfState} (h : KernelHalfInv s)
    {basePa frames : Nat}
    (htop : TopLevelPresent s (pa2va virtualToPhysicalOffset basePa) (frames * pageSize))
    (hstep : mmuCreatePagingTables vmmData virtualToPhysicalOffset s (some basePa) frames =
      some s') : KernelHalfInv s' := by
  unfold mmuCreatePagingTables at hstep
  dsimp only at hstep
  split at hstep
  · rename_i hfresh
    obtain ⟨haligned,hbounded,hapart⟩ := hfresh
    simp only [vmmSetupPageTables,Option.bind_eq_bind,Option.bind_eq_some_iff,Option.pure_def,
      Option.some.injEq] at hstep
    obtain ⟨_,⟨_,_,_,hframes,_,hlimit,mapped,hmap,rfl⟩,rfl⟩ := hstep
    have hframes : frames ≠ 0 := by simpa using hframes
    have hlimit : frames ≤ maxDword / pageSize := by simpa using hlimit
    obtain ⟨hsame,hinv⟩ := h.map htop hmap
    refine hinv.addTables ⟨basePa,frames,1,false⟩ ?_ ?_ ?_
    · exact ⟨haligned,hbounded,hlimit,Nat.one_pos,Nat.one_le_iff_ne_zero.mpr hframes⟩
    · change OutsidePool mapped.context basePa
      rw [hsame]
      intro k hk heq
      have hkernel := hapart s.kernel (by simp)
      simp only [PagingData.frame,pageSize] at heq hkernel hk
      omega
    · intro tables htables heq
      have hpool := hapart tables.pagingData
        (List.mem_cons_of_mem _ (List.mem_map_of_mem htables))
      have hused := (h.shared tables htables).wellFormed
      have hpos := hused.root_used
      have hle := hused.used_le
      simp only [PagingData.frame,pageSize] at hpool heq
      omega
  · cases hstep

theorem mem_copies_set {creation : Nat} {tables' : TablesCreation}
    (h : tables ∈ KernelHalfState.copies { s with creating := s.creating.set creation tables' }) :
    tables = tables' ∨ tables ∈ s.copies := by
  rcases List.mem_append.mp h with hprocess | hcreating
  · exact Or.inr (List.mem_append_left _ hprocess)
  · rcases List.mem_or_eq_of_mem_set hcreating with hold | rfl
    · exact Or.inr (List.mem_append_right _ hold)
    · exact Or.inl rfl

private theorem KernelHalfInv.load {s' : KernelHalfState} (h : KernelHalfInv s) {creation : Nat}
    (hstep : loadKernelEntry s creation = some s') : KernelHalfInv s' := by
  obtain ⟨tables,htables,hstep⟩ := Option.bind_eq_some_iff.mp hstep
  split at hstep
  · rename_i hnext
    rw [← Option.some.inj hstep]
    have hmem := List.mem_append_right (s.processes.map fun pagingData =>
      ⟨pagingData,noOfKernelEntries,none⟩) (List.mem_of_getElem? htables)
    obtain ⟨hwf,hout,hstored,_⟩ := h.shared tables hmem
    refine ⟨h.tree,h.pool,?_⟩
    intro other hother
    rcases mem_copies_set hother with rfl | hold
    · refine ⟨hwf,hout,hstored,?_⟩
      intro entry hentry
      exact ⟨hnext.2,(Option.some.inj hentry).symm⟩
    · exact h.shared other hold
  · cases hstep

private theorem KernelHalfInv.store {s' : KernelHalfState} (h : KernelHalfInv s) {creation : Nat}
    (hstep : storeKernelEntry s creation = some s') : KernelHalfInv s' := by
  obtain ⟨tables,htables,hstep⟩ := Option.bind_eq_some_iff.mp hstep
  obtain ⟨entry,hentry,hstep⟩ := Option.bind_eq_some_iff.mp hstep
  rw [← Option.some.inj hstep]
  have hmem := List.mem_append_right (s.processes.map fun pagingData =>
    ⟨pagingData,noOfKernelEntries,none⟩) (List.mem_of_getElem? htables)
  obtain ⟨hwf,hout,hstored,hloaded⟩ := h.shared tables hmem
  obtain ⟨hlt,rfl⟩ := hloaded entry hentry
  have hrows : ∀ table, table ≠ tables.pagingData.basePhysicalAddress →
      s.memory.writeEntry tables.pagingData.basePhysicalAddress (kernelEntry tables.copied)
        (s.memory s.kernel.basePhysicalAddress (kernelEntry tables.copied)) table =
          s.memory table :=
    fun table hne => Function.update_of_ne hne _ _
  obtain ⟨htree,hpool,hroot⟩ := h.outside hout hrows
  -- The store makes an entry the kernel's and changes no other, whatever table it is in.
  have hkept : ∀ table offset,
      s.memory table offset = s.memory s.kernel.basePhysicalAddress offset →
      s.memory.writeEntry tables.pagingData.basePhysicalAddress (kernelEntry tables.copied)
        (s.memory s.kernel.basePhysicalAddress (kernelEntry tables.copied)) table offset =
          s.memory s.kernel.basePhysicalAddress offset := by
    intro table offset hold
    by_cases heq : table = tables.pagingData.basePhysicalAddress ∧
        offset = kernelEntry tables.copied
    · rw [heq.1,heq.2]
      exact write_same ..
    · rw [← hold]
      exact write_of_ne _ (by tauto)
  refine ⟨htree,hpool,?_⟩
  intro other hother
  change SharesKernelHalf (s.memory.writeEntry _ _ _) s.kernel other
  rcases mem_copies_set hother with rfl | hold
  · refine ⟨hwf,hout,?_,?_⟩
    · intro offset hindex hcopied
      rw [hroot]
      by_cases heq : offset = kernelEntry tables.copied
      · rw [heq]
        exact write_same ..
      · apply hkept _ _ (hstored offset hindex _)
        have hval := kernelEntry_val hlt
        have hne := Fin.val_ne_of_ne heq
        change offset.val < firstKernelEntry + (tables.copied + 1) at hcopied
        omega
    · intro _ hnone
      cases hnone
  · obtain ⟨hwf',hout',hstored',hloaded'⟩ := h.shared other hold
    refine ⟨hwf',hout',?_,?_⟩
    · intro offset hindex hcopied
      rw [hroot]
      exact hkept _ _ (hstored' offset hindex hcopied)
    · rw [hroot]
      exact hloaded'

private theorem KernelHalfInv.finish {s' : KernelHalfState} (h : KernelHalfInv s) {creation : Nat}
    (hstep : returnPagingTables s creation = some s') : KernelHalfInv s' := by
  obtain ⟨⟨pagingData,copied,loaded⟩,htables,hstep⟩ := Option.bind_eq_some_iff.mp hstep
  split at hstep
  · rename_i hdone
    rw [← Option.some.inj hstep]
    refine ⟨h.tree,h.pool,?_⟩
    intro other hother
    apply h.shared
    obtain ⟨hloaded,rfl⟩ := hdone
    obtain rfl := Option.isNone_iff_eq_none.mp hloaded
    simp only [KernelHalfState.copies,List.map_cons,List.cons_append,List.mem_cons,
      List.mem_append] at hother ⊢
    rcases hother with rfl | hprocess | hcreating
    · exact Or.inr (List.mem_of_getElem? htables)
    · exact Or.inl hprocess
    · exact Or.inr (List.mem_of_mem_eraseIdx hcreating)
  · cases hstep

end Inv

theorem zeroRoot_tableAt {memory : PhysicalMemory} {root : Nat}
    (hzero : ∀ offset, memory root offset = ptEntryZero) {path : List (Fin 512)} {table : Nat}
    (h : memory.tableAt root path = some table) : path = [] ∧ table = root := by
  cases path with
  | nil => exact ⟨rfl,(Option.some.inj h).symm⟩
  | cons offset path =>
    rw [PhysicalMemory.tableAt,follow_cons,hzero offset] at h
    cases h

theorem zeroRoot_tree {memory : PhysicalMemory} {pagingData : PagingData}
    (hwf : pagingData.WellFormed) (hfirst : pagingData.currentIndex = 1)
    (hzero : ∀ offset, memory pagingData.basePhysicalAddress offset = ptEntryZero) :
    PagingTree memory pagingData := by
  have hrefers : ∀ table offset m,
      ¬ RefersTo memory pagingData.basePhysicalAddress table offset m := by
    intro table offset m href
    obtain ⟨path,hne,_,hm⟩ := exists_refers_iff.mp ⟨table,offset,href⟩
    exact hne (zeroRoot_tableAt hzero hm).1
  refine ⟨hwf,fun _ _ => hrefers _ _ _,?_,?_,fun _ _ _ _ _ => hrefers _ _ _⟩
  · intro table offset _ _ m href
    exact absurd href (hrefers table offset m)
  · intro k hpos hk
    omega

private theorem KernelHalfInv.init {s : KernelHalfState} (hwf : s.kernel.WellFormed)
    (hfirst : s.kernel.currentIndex = 1)
    (hzero : ∀ offset, s.memory s.kernel.basePhysicalAddress offset = ptEntryZero)
    (hnone : s.processes = []) (hnone' : s.creating = []) : KernelHalfInv s := by
  refine ⟨zeroRoot_tree hwf hfirst hzero,?_,?_⟩
  · intro path table _ hm
    refine ⟨0,Nat.lt_of_lt_of_le hwf.root_used hwf.used_le,?_⟩
    rw [(zeroRoot_tableAt hzero hm).2]
    simp [PagingData.frame]
  · intro tables htables
    rw [KernelHalfState.copies,hnone,hnone'] at htables
    cases htables

private theorem kernelHalf_inv {s : KernelHalfState}
    (h : (kernelHalfSystem vmmData virtualToPhysicalOffset).ReachableUnder
      (KeepsTopLevel virtualToPhysicalOffset) s) : KernelHalfInv s := by
  refine TransitionSystem.ReachableUnder.invariant ?_ ?_ h
  · rintro s ⟨hwf,hfirst,_,hzero,hnone,hnone'⟩
    exact KernelHalfInv.init hwf hfirst hzero hnone hnone'
  · intro s action s' _ hinv hguard hstep
    cases action with
    | mapMemory physicalAddress size baseAddress pageRights invalidate uncacheable =>
      obtain ⟨mapped,hmap,rfl⟩ := Option.map_eq_some_iff.mp hstep
      exact (hinv.map hguard hmap).2
    | unmapMemory virtualAddress size releaseMemory =>
      obtain ⟨unmapped,hunmap,rfl⟩ := Option.map_eq_some_iff.mp hstep
      exact hinv.of_keeps (vmmUnmapMemoryEx_keeps _ hinv.tree hinv.pool hunmap)
    | createPagingTables basePa frames =>
      cases basePa with
      | none =>
        rw [← Option.some.inj hstep]
        exact hinv
      | some basePa => exact hinv.create hguard hstep
    | loadKernelEntry creation => exact hinv.load hstep
    | storeKernelEntry creation => exact hinv.store hstep
    | returnPagingTables creation => exact hinv.finish hstep
    | destroyPagingTables process =>
      have hstep : mmuDestroyPagingTables virtualToPhysicalOffset s process = some s' := hstep
      simp only [mmuDestroyPagingTables,mmuUnmapMemoryEx,Option.bind_eq_bind,
        Option.bind_eq_some_iff,Option.pure_def,Option.some.injEq] at hstep
      obtain ⟨_,_,unmapped,⟨_,_,_,_,hunmap⟩,rfl⟩ := hstep
      have hunmapped : KernelHalfInv { s with memory := unmapped.memory } :=
        hinv.of_keeps (vmmUnmapMemoryEx_keeps _ hinv.tree hinv.pool hunmap)
      refine ⟨hunmapped.tree,hunmapped.pool,?_⟩
      intro tables htables
      apply hunmapped.shared
      rcases List.mem_append.mp htables with hmem | hmem
      · obtain ⟨other,hother,rfl⟩ := List.mem_map.mp hmem
        exact List.mem_append_left _ (List.mem_map_of_mem (List.mem_of_mem_eraseIdx hother))
      · exact List.mem_append_right _ hmem

end Runs

def exampleOffset : Nat := 0xFFFF800000000000

def exampleKernel : KernelHalfState := ⟨emptyTables,⟨0x100000,64,1,true⟩,[],[]⟩

private theorem exampleKernel_init : (kernelHalfSystem ⟨0,3⟩ exampleOffset).init exampleKernel :=
  ⟨⟨rfl,by decide,by decide,by decide,by decide⟩,rfl,rfl,fun _ => rfl,rfl,rfl⟩

def mapKernelPage (baseAddress : Nat) : KernelHalfAction :=
  .mapMemory 0x500000 0x1000 baseAddress pageRightsReadWrite true false

def createProcess (basePa frames : Nat) : List KernelHalfAction :=
  .createPagingTables (some basePa) frames ::
    (List.replicate noOfKernelEntries [.loadKernelEntry 0,.storeKernelEntry 0]).flatten ++
      [.returnPagingTables 0]

end Hal9000
