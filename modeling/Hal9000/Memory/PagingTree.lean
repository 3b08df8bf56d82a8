import Hal9000.Framework.RadixTree
import Hal9000.Memory.PagingTables

/-!
# The tree of paging structures

The tables of a `PAGING_DATA` form a radix tree of depth three: its tables are referred to
by one entry each, and the frames its pool has not handed out by none. A new paging
structure is an empty table linked at an empty entry.
-/

namespace Hal9000

open RadixTree

/-- An entry above the last level. -/
def PtEntry.slot (entry : PtEntry) : Slot Nat :=
  if entry.present then if entry.pageSize then .leaf else .table entry.physicalAddress
  else .empty

abbrev PhysicalMemory.tableAt (memory : PhysicalMemory) (root : Nat)
    (path : List (Fin 512)) : Option Nat :=
  follow PtEntry.slot memory root path

abbrev PhysicalMemory.leafAt (memory : PhysicalMemory) (root : Nat) (path : List (Fin 512)) :
    Option (PtEntry × Nat) :=
  RadixTree.leafAt PtEntry.slot memory root path

/-- A frame of the pool paging structures are taken from; the first is the root. -/
def PagingData.frame (pagingData : PagingData) (index : Nat) : Nat :=
  pagingData.basePhysicalAddress + index * pageSize

structure PagingData.WellFormed (pagingData : PagingData) : Prop where
  aligned : pagingData.basePhysicalAddress % pageSize = 0
  bounded : pagingData.frame pagingData.numberOfFrames ≤ 2 ^ 52
  frames_le : pagingData.numberOfFrames ≤ maxDword / pageSize
  root_used : 0 < pagingData.currentIndex
  used_le : pagingData.currentIndex ≤ pagingData.numberOfFrames

/-- The entry `(table,offset)` of a paging structure refers to the paging structure `m`. -/
abbrev RefersTo (memory : PhysicalMemory) (root table : Nat) (offset : Fin 512) (m : Nat) : Prop :=
  Refers PtEntry.slot memory root 3 table offset m

/-- Every paging structure but the root is referred to by exactly one non-leaf entry, and
the pool frames in use are the ones referred to. -/
structure PagingTree (memory : PhysicalMemory) (pagingData : PagingData) : Prop where
  wellFormed : pagingData.WellFormed
  root_unreferenced : ∀ table offset,
    ¬ RefersTo memory pagingData.basePhysicalAddress table offset pagingData.basePhysicalAddress
  one_reference : ∀ table offset table' offset' m,
    RefersTo memory pagingData.basePhysicalAddress table offset m →
    RefersTo memory pagingData.basePhysicalAddress table' offset' m →
    table = table' ∧ offset = offset'
  used_referenced : ∀ k, 0 < k → k < pagingData.currentIndex →
    ∃ table offset,
      RefersTo memory pagingData.basePhysicalAddress table offset (pagingData.frame k)
  spare_unreferenced : ∀ k, pagingData.currentIndex ≤ k → k < pagingData.numberOfFrames →
    ∀ table offset,
      ¬ RefersTo memory pagingData.basePhysicalAddress table offset (pagingData.frame k)

/-- The frames of the paging structures, handed out or not. -/
def IsPagingFrame (memory : PhysicalMemory) (pagingData : PagingData) (address : Nat) : Prop :=
  (∃ path, path.length ≤ 3 ∧
    memory.tableAt pagingData.basePhysicalAddress path = some address) ∨
  ∃ k, k < pagingData.numberOfFrames ∧ address = pagingData.frame k

/-- The bytes a leaf maps, given the number of levels below it. -/
def leafSize (levels : Nat) : Nat := pageSize * 512 ^ levels

/-- The tree of paging structures, and no leaf maps a frame of theirs. -/
structure TreeCondition (memory : PhysicalMemory) (pagingData : PagingData) : Prop
    extends PagingTree memory pagingData where
  leaves_clear : ∀ path entry levels, path.length = 4 →
    memory.leafAt pagingData.basePhysicalAddress path = some (entry,levels) →
    ∀ address, entry.physicalAddress ≤ address →
      address < entry.physicalAddress + leafSize levels →
      ¬ IsPagingFrame memory pagingData address

section Pool

variable {memory : PhysicalMemory} {pagingData : PagingData}

theorem PagingData.frame_injective (pagingData : PagingData) {k k' : Nat}
    (h : pagingData.frame k = pagingData.frame k') : k = k' := by
  simp only [PagingData.frame,pageSize] at h
  omega

theorem PagingTree.uniquePaths (h : PagingTree memory pagingData) :
    UniquePaths PtEntry.slot memory pagingData.basePhysicalAddress 3 :=
  uniquePaths_iff.mpr ⟨h.root_unreferenced,h.one_reference⟩

theorem PagingTree.spare_unreached (h : PagingTree memory pagingData) {k : Nat}
    (hle : pagingData.currentIndex ≤ k) (hlt : k < pagingData.numberOfFrames) :
    Unreached PtEntry.slot memory pagingData.basePhysicalAddress 3 (pagingData.frame k) := by
  refine unreached_iff.mpr ⟨?_,h.spare_unreferenced k hle hlt⟩
  have hpos := h.wellFormed.root_used
  simp only [PagingData.frame,pageSize]
  omega

theorem PagingData.WellFormed.cr3_table (h : pagingData.WellFormed) :
    (Pml4.mk pagingData.basePhysicalAddress).physicalAddress * pageSize =
      pagingData.basePhysicalAddress := by
  have haligned := h.aligned
  have hbound := h.bounded
  simp only [PagingData.frame,Pml4.physicalAddress,pageSize] at haligned hbound ⊢
  have hpos := h.root_used
  have hused := h.used_le
  rw [Nat.mod_eq_of_lt]
  · omega
  · omega

theorem retrieveNext_eq (h : pagingData.WellFormed)
    (hroom : pagingData.currentIndex < pagingData.numberOfFrames) :
    vmRetrieveNextPhysicalAddressForPagingStructure pagingData =
      some (pagingData.frame pagingData.currentIndex,
        { pagingData with currentIndex := pagingData.currentIndex + 1 }) := by
  have hframes := h.frames_le
  have hbound := h.bounded
  simp only [PagingData.frame,pageSize,maxDword] at hframes hbound
  have hproduct : pagingData.currentIndex * pageSize % 2 ^ 32 =
      pagingData.currentIndex * pageSize := by
    apply Nat.mod_eq_of_lt
    simp only [pageSize]
    omega
  have haddress : ptrOffset pagingData.basePhysicalAddress (pagingData.currentIndex * pageSize) =
      pagingData.frame pagingData.currentIndex := by
    apply Nat.mod_eq_of_lt
    simp only [pageSize,qwordModulus]
    omega
  unfold vmRetrieveNextPhysicalAddressForPagingStructure
  simp only [hroom,decide_true,assert_true,hproduct,haddress]
  rfl

end Pool

section Changes

variable {memory memory' : PhysicalMemory} {pagingData : PagingData}

theorem PagingTree.congr (h : PagingTree memory pagingData)
    (hsame : ∀ path, path.length ≤ 3 → memory'.tableAt pagingData.basePhysicalAddress path =
      memory.tableAt pagingData.basePhysicalAddress path) : PagingTree memory' pagingData := by
  have hunique := uniquePaths_iff.mp (h.uniquePaths.congr hsame)
  have hrefers : ∀ m, (∃ n i, RefersTo memory' pagingData.basePhysicalAddress n i m) ↔
      ∃ n i, RefersTo memory pagingData.basePhysicalAddress n i m := by
    intro m
    rw [exists_refers_iff,exists_refers_iff]
    constructor
    · rintro ⟨p,hne,hp,hm⟩
      exact ⟨p,hne,hp,(hsame p hp).symm.trans hm⟩
    · rintro ⟨p,hne,hp,hm⟩
      exact ⟨p,hne,hp,(hsame p hp).trans hm⟩
  refine ⟨h.wellFormed,hunique.1,hunique.2,?_,?_⟩
  · intro k hpos hk
    exact (hrefers _).mpr (h.used_referenced k hpos hk)
  · intro k hle hk n i href
    obtain ⟨n',i',href'⟩ := (hrefers _).mp ⟨n,i,href⟩
    exact h.spare_unreferenced k hle hk n' i' href'

theorem slot_of_not_present {entry : PtEntry} (h : entry.present = false) :
    entry.slot = .empty := by
  simp [PtEntry.slot,h]

theorem slot_of_present {entry : PtEntry} (h : entry.present = true) : entry.slot ≠ .empty := by
  simp only [PtEntry.slot,h]
  cases entry.pageSize <;> simp

@[simp] theorem slot_zero : ptEntryZero.slot = .empty := rfl

theorem target_pteMap (physicalAddress : Nat) (flags : PteMapFlags) :
    target PtEntry.slot (pteMap physicalAddress flags) = some physicalAddress := rfl

theorem target_of_present {entry : PtEntry} (h : entry.present = true)
    (hsmall : entry.pageSize = false) :
    target PtEntry.slot entry = some entry.physicalAddress := by
  simp [target,PtEntry.slot,h,hsmall]

/-- The tables after a new paging structure is set up at `(table,offset)`. -/
def linkNext (memory : PhysicalMemory) (pagingData : PagingData) (table : Nat)
    (offset : Fin 512) : PhysicalMemory :=
  link memory table offset
    (pteMap (pagingData.frame pagingData.currentIndex) (pagingStructureFlags pagingData))
    (pagingData.frame pagingData.currentIndex) fun _ => ptEntryZero

/-- Takes the next frame of the pool. -/
def PagingData.next (pagingData : PagingData) : PagingData :=
  { pagingData with currentIndex := pagingData.currentIndex + 1 }

variable {q : List (Fin 512)} {table : Nat} {offset : Fin 512}

theorem vmSetupPagingStructure_of_ne (hwf : pagingData.WellFormed)
    (hroom : pagingData.currentIndex < pagingData.numberOfFrames)
    (hne : table ≠ pagingData.frame pagingData.currentIndex) :
    vmSetupPagingStructure memory pagingData table offset =
      some ⟨linkNext memory pagingData table offset,pagingData.next⟩ := by
  unfold vmSetupPagingStructure
  rw [retrieveNext_eq hwf hroom]
  simp only [Option.bind_eq_bind,Option.bind_some,Option.pure_def,Option.some.injEq,
    WalkState.mk.injEq]
  refine ⟨?_,rfl⟩
  unfold PhysicalMemory.zeroTable PhysicalMemory.writeEntry linkNext link write
  rw [Function.update_of_ne hne,Function.update_comm hne]
  rfl

theorem vmSetupPagingStructure_eq (h : PagingTree memory pagingData)
    (hroom : pagingData.currentIndex < pagingData.numberOfFrames) (hq : q.length < 3)
    (htable : memory.tableAt pagingData.basePhysicalAddress q = some table) :
    vmSetupPagingStructure memory pagingData table offset =
      some ⟨linkNext memory pagingData table offset,pagingData.next⟩ := by
  apply vmSetupPagingStructure_of_ne h.wellFormed hroom
  rintro rfl
  exact h.spare_unreached le_rfl hroom q (by omega) htable

variable (h : PagingTree memory pagingData)
  (hroom : pagingData.currentIndex < pagingData.numberOfFrames) (hq : q.length < 3)
  (htable : memory.tableAt pagingData.basePhysicalAddress q = some table)
  (hempty : (memory table offset).slot = .empty)

include h hroom hq htable

theorem linkNext_tableAt_self :
    (linkNext memory pagingData table offset).tableAt pagingData.basePhysicalAddress
      (q ++ [offset]) = some (pagingData.frame pagingData.currentIndex) :=
  link_follow_self h.uniquePaths hq htable (h.spare_unreached le_rfl hroom) (target_pteMap _ _)

theorem linkNext_tableAt_cases {path : List (Fin 512)} (hpath : path.length ≤ 3) {m : Nat}
    (hm : (linkNext memory pagingData table offset).tableAt pagingData.basePhysicalAddress path =
      some m) :
    path = q ++ [offset] ∧ m = pagingData.frame pagingData.currentIndex ∨
      memory.tableAt pagingData.basePhysicalAddress path = some m :=
  link_follow_cases h.uniquePaths hq htable (h.spare_unreached le_rfl hroom) (target_pteMap _ _)
    (fun _ => slot_zero) hpath hm

omit h hroom hq htable in
theorem linkNext_entry {m : Nat} (hm : m ≠ pagingData.frame pagingData.currentIndex)
    {i : Fin 512} (hi : ¬ (m = table ∧ i = offset)) :
    linkNext memory pagingData table offset m i = memory m i := by
  unfold linkNext link
  rw [write_of_ne _ (by tauto),Function.update_of_ne hm]

include hempty

theorem linkNext_tableAt_mono {path : List (Fin 512)} (hpath : path.length ≤ 3) {m : Nat}
    (hm : memory.tableAt pagingData.basePhysicalAddress path = some m) :
    (linkNext memory pagingData table offset).tableAt pagingData.basePhysicalAddress path =
      some m :=
  link_follow_mono h.uniquePaths hq htable (h.spare_unreached le_rfl hroom) hempty hpath hm

theorem linkNext_leafAt {path : List (Fin 512)} (hpath : path.length = 4) :
    (linkNext memory pagingData table offset).leafAt pagingData.basePhysicalAddress path =
      memory.leafAt pagingData.basePhysicalAddress path := by
  apply link_leafAt h.uniquePaths hq htable (h.spare_unreached le_rfl hroom) hempty
    (target_pteMap _ _) (fun _ => slot_zero) (by omega)
  rintro rfl
  simp at hpath
  omega

theorem linkNext_pagingTree :
    PagingTree (linkNext memory pagingData table offset) pagingData.next := by
  have hspare := h.spare_unreached le_rfl hroom
  have hunique := uniquePaths_iff.mp (link_uniquePaths h.uniquePaths hq htable hspare
    (target_pteMap _ (pagingStructureFlags pagingData)) (fun _ => slot_zero) (i := offset))
  obtain ⟨haligned,hbounded,hframes,hpos,hused⟩ := h.wellFormed
  refine ⟨⟨haligned,hbounded,hframes,Nat.succ_pos _,hroom⟩,hunique.1,hunique.2,?_,?_⟩
  · intro k hk hlt
    apply exists_refers_iff.mpr
    by_cases hlast : k = pagingData.currentIndex
    · subst k
      exact ⟨q ++ [offset],by simp,by simp; omega,linkNext_tableAt_self h hroom hq htable⟩
    · have hlt : k < pagingData.currentIndex + 1 := hlt
      obtain ⟨p,hne,hp,hm⟩ := exists_refers_iff.mp (h.used_referenced k hk (by omega))
      exact ⟨p,hne,hp,linkNext_tableAt_mono h hroom hq htable hempty hp hm⟩
  · intro k hle hlt n i href
    have hle : pagingData.currentIndex + 1 ≤ k := hle
    obtain ⟨p,hne,hp,hm⟩ := exists_refers_iff.mp ⟨n,i,href⟩
    rcases linkNext_tableAt_cases h hroom hq htable hp hm with ⟨_,heq⟩ | hold
    · have hk := pagingData.frame_injective heq
      omega
    · exact h.spare_unreached (by omega) hlt p hp hold

end Changes

end Hal9000
