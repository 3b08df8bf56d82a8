import Hal9000.Memory.Decommit

/-!
# Pages mapped and unmapped again

What an address space sees of the tables are their leaves. The pages of a walk are mapped, and pages
of walks of the same address space and of another one are unmapped: the leaves are those from before
if and only if these are the pages that were mapped, and none of them was seen before.
-/

namespace Hal9000

open RadixTree

section Leaves

variable {memory memory' : PhysicalMemory} {root virtualAddress : Nat} {entry : PtEntry}

theorem exists_table_of_leafAt {path : List (Fin 512)} {offset : Fin 512}
    (h : memory.leafAt root (path ++ [offset]) = some (entry,0)) :
    ∃ table, memory.tableAt root path = some table ∧ memory table offset = entry ∧
      entry.present = true := by
  induction path generalizing root with
  | nil =>
    refine ⟨root,rfl,?_⟩
    have hroot : memory.tableAt root [] = some root := rfl
    have hlast := leafAt_lastLevel hroot offset
    rw [h] at hlast
    by_cases hpresent : (memory root offset).present = true
    · rw [if_pos hpresent] at hlast
      have hentry := (Prod.mk.inj (Option.some.inj hlast)).1
      exact ⟨hentry.symm,hentry ▸ hpresent⟩
    · rw [if_neg hpresent] at hlast
      cases hlast
  | cons index path ih =>
    have hne : path ++ [offset] ≠ [] := by simp
    cases hslot : (memory root index).slot with
    | empty =>
      rw [List.cons_append,PhysicalMemory.leafAt,RadixTree.leafAt_empty hslot] at h
      cases h
    | leaf =>
      obtain ⟨next,rest,hrest⟩ := List.exists_cons_of_ne_nil hne
      rw [List.cons_append,hrest] at h
      simp only [PhysicalMemory.leafAt,RadixTree.leafAt,hslot] at h
      exact absurd (Prod.mk.inj (Option.some.inj h)).2 (by simp)
    | table next =>
      have htarget : RadixTree.target PtEntry.slot (memory root index) = some next := by
        rw [RadixTree.target,hslot]
      rw [List.cons_append,PhysicalMemory.leafAt,RadixTree.leafAt_table htarget hne] at h
      obtain ⟨table,htable,hentry⟩ := ih h
      refine ⟨table,?_,hentry⟩
      rw [PhysicalMemory.tableAt,RadixTree.follow_cons,htarget]
      exact htable

theorem leafAt_page : memory.leafAt root (tableOffsets virtualAddress) = some (entry,0) ↔
    ∃ page : PageEntry, page.Of memory root virtualAddress ∧
      memory page.table page.offset = entry ∧ entry.present = true := by
  constructor
  · intro h
    obtain ⟨path,offset,hpath⟩ : ∃ path offset, tableOffsets virtualAddress = path ++ [offset] :=
      ⟨_,_,(List.dropLast_append_getLast (by simp [tableOffsets])).symm⟩
    rw [hpath] at h
    obtain ⟨table,htable,hentry,hpresent⟩ := exists_table_of_leafAt h
    exact ⟨⟨path,table,offset⟩,⟨hpath.symm,htable⟩,hentry,hpresent⟩
  · rintro ⟨page,hof,hentry,hpresent⟩
    rw [hof.leafAt,hentry,if_pos hpresent]

theorem PageEntry.Of.congr {page : PageEntry} (h : page.Of memory root virtualAddress)
    (htables : ∀ path table, path.length ≤ 3 → memory.tableAt root path = some table →
      memory'.tableAt root path = some table) : page.Of memory' root virtualAddress :=
  ⟨h.path,htables _ _ h.length.le h.table⟩

end Leaves

section Large

variable {Space : Type} {roots : Space → Nat} {pagingData : Space → PagingData}
  {memory memory₁ memory₂ : PhysicalMemory} {space other : Space}

/-- Every leaf is as it was, or it is not large, before and after. -/
def LargeLeavesKept (roots : Space → Nat) (memory memory₁ : PhysicalMemory) : Prop :=
  ∀ other path, path.length = 4 →
    memory₁.leafAt (roots other) path = memory.leafAt (roots other) path ∨
      SmallLeaf memory (roots other) path ∧ SmallLeaf memory₁ (roots other) path

theorem LargeLeavesKept.refl : LargeLeavesKept roots memory memory := fun _ _ _ => Or.inl rfl

theorem LargeLeavesKept.trans (h : LargeLeavesKept roots memory memory₁)
    (h' : LargeLeavesKept roots memory₁ memory₂) : LargeLeavesKept roots memory memory₂ := by
  intro other path hlength
  rcases h other path hlength with hsame | ⟨hsmall,hsmall₁⟩
  · rcases h' other path hlength with hsame' | ⟨hsmall₁,hsmall₂⟩
    · exact Or.inl (hsame'.trans hsame)
    · refine Or.inr ⟨fun entry levels hleaf => ?_,hsmall₂⟩
      exact hsmall₁ entry levels (hsame.trans hleaf)
  · rcases h' other path hlength with hsame' | ⟨-,hsmall₂⟩
    · refine Or.inr ⟨hsmall,fun entry levels hleaf => ?_⟩
      exact hsmall₁ entry levels (hsame'.symm.trans hleaf)
    · exact Or.inr ⟨hsmall,hsmall₂⟩

theorem LargeLeavesKept.leafAt_eq (h : LargeLeavesKept roots memory memory₁)
    {path : List (Fin 512)} (hlength : path.length = 4)
    (hpages : ∀ entry, memory₁.leafAt (roots other) path = some (entry,0) ↔
      memory.leafAt (roots other) path = some (entry,0)) :
    memory₁.leafAt (roots other) path = memory.leafAt (roots other) path := by
  rcases h other path hlength with hsame | ⟨hsmall,hsmall₁⟩
  · exact hsame
  · apply Option.ext
    rintro ⟨entry,levels⟩
    constructor
    · intro hleaf
      obtain rfl := hsmall₁ entry levels hleaf
      exact (hpages entry).mp hleaf
    · intro hleaf
      obtain rfl := hsmall entry levels hleaf
      exact (hpages entry).mpr hleaf

theorem smallLeaf_of_table {root table : Nat} {q : List (Fin 512)}
    (htable : memory.tableAt root q = some table) (offset : Fin 512) :
    SmallLeaf memory root (q ++ [offset]) := by
  intro entry levels hleaf
  rw [leafAt_lastLevel htable offset] at hleaf
  by_cases hpresent : (memory table offset).present = true
  · rw [if_pos hpresent] at hleaf
    exact (Prod.mk.inj (Option.some.inj hleaf)).2.symm
  · rw [if_neg hpresent] at hleaf
    cases hleaf

theorem LeavesShared.kept {base n : Nat}
    (h : LeavesShared pagingData memory space base 0 n memory₁) :
    LargeLeavesKept (rootsOf pagingData) memory memory₁ := by
  intro other path hlength
  rcases h other path hlength with hsame | ⟨hsmall,k,page,-,-,rfl,-,hof⟩
  · exact Or.inl hsame
  · refine Or.inr ⟨hsmall,?_⟩
    rw [← hof.path]
    exact smallLeaf_of_table hof.table _

theorem PagingForest.writeEntry_kept (h : PagingForest memory pagingData) {q : List (Fin 512)}
    {table : Nat} (hq : q.length = 3)
    (htable : memory.tableAt (rootsOf pagingData space) q = some table) (offset : Fin 512)
    (entry : PtEntry) :
    LargeLeavesKept (rootsOf pagingData) memory (memory.writeEntry table offset entry) := by
  obtain ⟨-,htables,hothers,-⟩ := h.writeEntry hq htable offset entry
  intro other path hlength
  by_cases hpath : path = q ++ [offset]
  · subst hpath
    rcases writeLast_leafAt_or h.onePath hq htable other (le_of_eq hlength) with hreached | hsame
    · exact Or.inr ⟨smallLeaf_of_table hreached offset,
        smallLeaf_of_table ((htables other q (by omega)).trans hreached) offset⟩
    · exact Or.inl hsame
  · exact Or.inl (hothers other path hlength hpath)

theorem walkStructures_unmap_kept {releaseMemory : Bool} {virtualAddress : Nat}
    (rest : List (Fin 512)) {q : List (Fin 512)} {table : Nat}
    (hlength : q.length + rest.length = 4)
    {s s' : WalkState (List Nat)} (h : PagingForest s.memory pagingData)
    (htable : s.memory.tableAt (rootsOf pagingData space) q = some table)
    (hwalk : walkStructures (vmUnmapPage releaseMemory) virtualAddress (q.length + 1) rest table s =
      some s') :
    PagingForest s'.memory pagingData ∧
      LargeLeavesKept (rootsOf pagingData) s.memory s'.memory := by
  induction rest generalizing q table with
  | nil =>
    obtain rfl := Option.some.inj hwalk
    exact ⟨h,.refl⟩
  | cons offset rest ih =>
    simp only [walkStructures,Option.bind_eq_bind,Option.bind_eq_some_iff] at hwalk
    obtain ⟨⟨continueWalk,s₁⟩,hstep,hwalk⟩ := hwalk
    rcases vmUnmapPage_cases hstep with ⟨-,rfl,rfl⟩ | ⟨hpresent,rfl,hcases⟩
    · obtain rfl := Option.some.inj hwalk
      exact ⟨h,.refl⟩
    · obtain ⟨_,hsmall,hwalk⟩ := Option.bind_eq_some_iff.mp hwalk
      rw [List.length_cons] at hlength
      rcases hcases with ⟨hlast,rfl⟩ | ⟨hlast,rfl⟩
      · have hq : q.length = 3 := by omega
        obtain rfl : rest = [] := List.length_eq_zero_iff.mp (by omega)
        obtain rfl := Option.some.inj hwalk
        exact ⟨(h.writeEntry hq htable offset ptEntryZero).1,h.writeEntry_kept hq htable offset _⟩
      · have hlevel : q.length ≠ 3 := by omega
        have hsmall : (s₁.memory table offset).pageSize = false := by
          simpa [pagingTablesLastLevel,hlevel] using hsmall
        refine ih (q := q ++ [offset]) ?_ (tableAt_concat htable hpresent hsmall) ?_
        · rw [List.length_append,List.length_singleton]
          omega
        · simpa using hwalk

theorem walkPages_unmap_kept {releaseMemory : Bool} {cr3 : Pml4} {baseAddress : Nat}
    (hroot : cr3.physicalAddress * pageSize = rootsOf pagingData space) (count offset : Nat)
    {s s' : WalkState (List Nat)} (h : PagingForest s.memory pagingData)
    (hwalk : walkPages (vmUnmapPage releaseMemory) cr3 baseAddress count offset s = some s') :
    LargeLeavesKept (rootsOf pagingData) s.memory s'.memory := by
  induction count generalizing offset s with
  | zero =>
    obtain rfl := Option.some.inj hwalk
    exact .refl
  | succ count ih =>
    simp only [walkPages,Option.bind_eq_bind,Option.bind_eq_some_iff] at hwalk
    obtain ⟨s₁,hpage,hrest⟩ := hwalk
    rw [hroot] at hpage
    obtain ⟨hforest,hkept⟩ := walkStructures_unmap_kept _ (q := []) rfl h rfl hpage
    exact hkept.trans (ih _ hforest hrest)

theorem vmmUnmapMemoryEx_kept {releaseMemory : Bool} (h : PagingForest memory pagingData)
    (space : Space) {baseAddress size : Nat} {s : WalkState (List Nat)}
    (hunmap : vmmUnmapMemoryEx memory ⟨(pagingData space).basePhysicalAddress⟩ baseAddress size
      releaseMemory = some s) : LargeLeavesKept (rootsOf pagingData) memory s.memory := by
  unfold vmmUnmapMemoryEx at hunmap
  split at hunmap
  · obtain rfl := Option.some.inj hunmap
    exact .refl
  · split at hunmap
    · obtain rfl := Option.some.inj hunmap
      exact .refl
    · exact walkPages_unmap_kept (h.wellFormed space).cr3_table _ _ (s := ⟨memory,[]⟩) h hunmap

end Large

/-- The entry of a page of the range. -/
def PageEntry.Within (memory : PhysicalMemory) (root base count : Nat) (page : PageEntry) : Prop :=
  ∃ k < count, page.Of memory root (walkAddress base k)

section Window

variable {Space : Type} [DecidableEq Space] {pagingData : Space → PagingData}
  {memory memory₁ memory₂ : PhysicalMemory} {space other kernel : Space} {context : PagingData}
  {entryAt : Nat → PtEntry} {base buffer virtualAddress n m b : Nat} {entry : PtEntry}
  {page : PageEntry}

/-- What the clean-up takes out of the tables. -/
structure WindowCleared (roots : Space → Nat) (memory₁ : PhysicalMemory) (space kernel : Space)
    (base m buffer b : Nat) (memory₂ : PhysicalMemory) : Prop where
  tables : ∀ other path, path.length ≤ 3 →
    memory₂.tableAt (roots other) path = memory₁.tableAt (roots other) path
  entries : ∀ page entry, PageEntry.Holds memory₂ roots page entry ↔
    PageEntry.Holds memory₁ roots page entry ∧
      ¬page.Within memory₁ (roots kernel) buffer b ∧ ¬page.Within memory₁ (roots space) base m
  large : LargeLeavesKept roots memory₁ memory₂

omit [DecidableEq Space] in
theorem WindowCleared.leaf
    (h : WindowCleared (rootsOf pagingData) memory₁ space kernel base m buffer b memory₂) :
    memory₂.leafAt (rootsOf pagingData other) (tableOffsets virtualAddress) = some (entry,0) ↔
      ∃ page : PageEntry, page.Of memory₁ (rootsOf pagingData other) virtualAddress ∧
        PageEntry.Holds memory₂ (rootsOf pagingData) page entry := by
  rw [leafAt_page]
  constructor
  · rintro ⟨page,hof,hentry,hpresent⟩
    refine ⟨page,hof.congr fun path table hlength htable => ?_,hof.length,⟨other,hof.table⟩,hentry,
      hpresent⟩
    rw [← h.tables other path hlength]
    exact htable
  · rintro ⟨page,hof,hold⟩
    refine ⟨page,hof.congr fun path table hlength htable => ?_,hold.entry_eq,hold.present⟩
    rw [h.tables other path hlength]
    exact htable

omit [DecidableEq Space] in
theorem WindowCleared.not_leaf
    (h : WindowCleared (rootsOf pagingData) memory₁ space kernel base m buffer b memory₂)
    (hof : page.Of memory₁ (rootsOf pagingData other) virtualAddress)
    (hgone : page.Within memory₁ (rootsOf pagingData kernel) buffer b ∨
      page.Within memory₁ (rootsOf pagingData space) base m) :
    memory₂.leafAt (rootsOf pagingData other) (tableOffsets virtualAddress) ≠ some (entry,0) := by
  intro hleaf
  obtain ⟨page',hof',hold⟩ := h.leaf.mp hleaf
  obtain rfl := hof.unique hof'
  obtain ⟨-,hbuffer,hrange⟩ := (h.entries page entry).mp hold
  exact hgone.elim hbuffer hrange

omit [DecidableEq Space] in
theorem LeavesShared.seen (h : LeavesShared pagingData memory space base 0 n memory₁)
    (hleaf : memory₁.leafAt (rootsOf pagingData other) (tableOffsets virtualAddress) =
      some (entry,0)) :
    memory.leafAt (rootsOf pagingData other) (tableOffsets virtualAddress) = some (entry,0) ∨
      ∃ page : PageEntry, page.Of memory₁ (rootsOf pagingData other) virtualAddress ∧
        page.Within memory₁ (rootsOf pagingData space) base n := by
  rcases h other (tableOffsets virtualAddress) rfl with hsame | ⟨-,k,page,-,hk,hpath,hof,hof'⟩
  · exact Or.inl (hsame ▸ hleaf)
  · exact Or.inr ⟨page,⟨hof'.path.trans hpath.symm,hof'.table⟩,k,hk,hof⟩

omit [DecidableEq Space] in
theorem LeavesShared.small (h : LeavesShared pagingData memory space base 0 n memory₁)
    (hof : page.Of memory₁ (rootsOf pagingData other) virtualAddress)
    (hnone : ∀ entry, memory.leafAt (rootsOf pagingData other) (tableOffsets virtualAddress) ≠
      some (entry,0)) :
    memory.leafAt (rootsOf pagingData other) (tableOffsets virtualAddress) = none := by
  cases hleaf : memory.leafAt (rootsOf pagingData other) (tableOffsets virtualAddress) with
  | none => rfl
  | some leaf =>
    obtain ⟨entry,levels⟩ := leaf
    have hlevels : levels = 0 := by
      rcases h other (tableOffsets virtualAddress) rfl with hsame | ⟨hsmall,-⟩
      · rw [hleaf,hof.leafAt] at hsame
        by_cases hpresent : (memory₁ page.table page.offset).present = true
        · rw [if_pos hpresent] at hsame
          exact (Prod.mk.inj (Option.some.inj hsame)).2.symm
        · rw [if_neg hpresent] at hsame
          cases hsame
      · exact hsmall entry levels hleaf
    subst hlevels
    exact absurd hleaf (hnone entry)

/-- Every address space sees what it saw. -/
def SameLeaves (roots : Space → Nat) (memory memory₁ : PhysicalMemory) : Prop :=
  ∀ other virtualAddress, memory₁.leafAt (roots other) (tableOffsets virtualAddress) =
    memory.leafAt (roots other) (tableOffsets virtualAddress)

private theorem pages_restored
    (hm : ForestRangeMapped pagingData memory space entryAt base 0 n memory₁ context)
    (hshared : LeavesShared pagingData memory space base 0 n memory₁)
    (h : WindowCleared (rootsOf pagingData) memory₁ space kernel base n buffer b memory₂)
    (habsent : ∀ k < n, memory.leafAt (rootsOf pagingData space)
      (tableOffsets (walkAddress base k)) = none)
    (hbuffer : ∀ k < b, memory.leafAt (rootsOf pagingData kernel)
      (tableOffsets (walkAddress buffer k)) = none) :
    SameLeaves (rootsOf pagingData) memory memory₂ := by
  have hfresh := hm.fresh fun k _ hk => habsent k hk
  have hgone : ∀ {page entry'}, PageEntry.Holds memory (rootsOf pagingData) page entry' →
      ¬page.Within memory₁ (rootsOf pagingData space) base n := by
    rintro page entry' hold ⟨k,hk,hof⟩
    exact hfresh k page entry' (Nat.zero_le k) hk hof hold
  intro other virtualAddress
  refine (hshared.kept.trans h.large).leafAt_eq rfl fun entry => ⟨?_,?_⟩
  · intro hleaf
    obtain ⟨page,hof,hold⟩ := h.leaf.mp hleaf
    obtain ⟨hold₁,-,hrange⟩ := (h.entries page entry).mp hold
    rcases hshared.seen (leafAt_page.mpr ⟨page,hof,hold₁.entry_eq,hold₁.present⟩) with
      hseen | ⟨page',hof',hwithin⟩
    · exact hseen
    · obtain rfl := hof.unique hof'
      exact absurd hwithin hrange
  · intro hleaf
    obtain ⟨page,hof,hentry,hpresent⟩ := leafAt_page.mp hleaf
    have hold : PageEntry.Holds memory (rootsOf pagingData) page entry :=
      ⟨hof.length,⟨other,hof.table⟩,hentry,hpresent⟩
    have hof₁ : page.Of memory₁ (rootsOf pagingData other) virtualAddress :=
      hof.congr fun path table hlength htable => hm.tables other path table hlength htable
    have hold₁ : PageEntry.Holds memory₁ (rootsOf pagingData) page entry :=
      (hm.entries page entry).mpr
        (Or.inr ⟨fun k hle hk hofk => hgone hold ⟨k,hk,hofk⟩,hold⟩)
    refine h.leaf.mpr ⟨page,hof₁,(h.entries page entry).mpr ⟨hold₁,?_,hgone hold⟩⟩
    rintro ⟨k,hk,hofk⟩
    rcases hshared.seen (leafAt_page.mpr ⟨page,hofk,hold₁.entry_eq,hold₁.present⟩) with
      hseen | ⟨page',hof',hwithin⟩
    · rw [hbuffer k hk] at hseen
      cases hseen
    · obtain rfl := hofk.unique hof'
      exact hgone hold hwithin

private theorem pages_restored_only
    (hm : ForestRangeMapped pagingData memory space entryAt base 0 n memory₁ context)
    (hshared : LeavesShared pagingData memory space base 0 n memory₁)
    (h : WindowCleared (rootsOf pagingData) memory₁ space kernel base m buffer b memory₂)
    (haligned : isAddressAligned base pageSize = true) (hn : n ≤ 2 ^ 36) (hle : m ≤ n)
    (hfew : m < n → b < n - m)
    (hnew : ∀ k < n, ∀ page,
      ¬PageEntry.Holds memory (rootsOf pagingData) page (entryAt (walkAddress base k)))
    (hpages : ∀ k < b, memory₁.leafAt (rootsOf pagingData kernel)
        (tableOffsets (walkAddress buffer k)) ≠ none → ∃ page : PageEntry,
      page.Of memory₁ (rootsOf pagingData kernel) (walkAddress buffer k))
    (hsame : SameLeaves (rootsOf pagingData) memory memory₂) :
    m = n ∧ (∀ k < n, memory.leafAt (rootsOf pagingData space)
        (tableOffsets (walkAddress base k)) = none) ∧
      ∀ k < b, memory.leafAt (rootsOf pagingData kernel)
        (tableOffsets (walkAddress buffer k)) = none := by
  have hmapped : ∀ k < n, ∃ page : PageEntry,
      page.Of memory₁ (rootsOf pagingData space) (walkAddress base k) ∧
        PageEntry.Holds memory₁ (rootsOf pagingData) page (entryAt (walkAddress base k)) := by
    intro k hk
    obtain ⟨page,hof⟩ := hm.mapped k (Nat.zero_le k) hk
    exact ⟨page,hof,(hm.entries page _).mpr (Or.inl ⟨k,Nat.zero_le k,hk,hof,rfl⟩)⟩
  have hall : m = n := by
    by_contra hne
    have hcount := Finset.card_le_card_of_forall_subsingleton (s := Finset.Ico m n)
      (t := Finset.range b) (fun k j =>
        tableOffsets (walkAddress base k) = tableOffsets (walkAddress buffer j)) ?_ ?_
    · rw [Nat.card_Ico,Finset.card_range] at hcount
      have hless := hfew (by omega)
      omega
    · -- a page left behind is seen, unless the buffer has it too
      intro k hk
      obtain ⟨hfirst,hlast⟩ := Finset.mem_Ico.mp hk
      obtain ⟨page,hof,hold⟩ := hmapped k hlast
      by_contra hnone
      have hbuffer : ¬page.Within memory₁ (rootsOf pagingData kernel) buffer b := by
        rintro ⟨j,hj,hofj⟩
        exact hnone ⟨j,Finset.mem_range.mpr hj,hof.tableOffsets_eq hofj⟩
      have hrange : ¬page.Within memory₁ (rootsOf pagingData space) base m := by
        rintro ⟨j,hj,hofj⟩
        have heq := walkAddress_injective haligned (by omega) (by omega) (hof.tableOffsets_eq hofj)
        omega
      have hleaf := h.leaf.mpr ⟨page,hof,(h.entries page _).mpr ⟨hold,hbuffer,hrange⟩⟩
      rw [hsame space] at hleaf
      obtain ⟨page',hof',hentry,hpresent⟩ := leafAt_page.mp hleaf
      exact hnew k hlast page' ⟨hof'.length,⟨space,hof'.table⟩,hentry,hpresent⟩
    · intro j hj k hk k' hk'
      obtain ⟨hk,heq⟩ := hk
      obtain ⟨hk',heq'⟩ := hk'
      have hbound := Finset.mem_Ico.mp hk
      have hbound' := Finset.mem_Ico.mp hk'
      exact walkAddress_injective haligned (by omega) (by omega) (heq.trans heq'.symm)
  subst hall
  refine ⟨rfl,?_,?_⟩
  · intro k hk
    obtain ⟨page,hof,-⟩ := hmapped k hk
    refine hshared.small hof fun entry hleaf => ?_
    exact h.not_leaf hof (Or.inr ⟨k,hk,hof⟩) ((hsame space _).trans hleaf)
  · intro k hk
    by_contra hsome
    obtain ⟨page,hof⟩ : ∃ page : PageEntry,
        page.Of memory₁ (rootsOf pagingData kernel) (walkAddress buffer k) := by
      rcases hshared kernel (tableOffsets (walkAddress buffer k)) rfl with
        heq | ⟨-,j,page,-,hj,hpath,-,hof⟩
      · exact hpages k hk (by rw [heq]; exact hsome)
      · exact ⟨page,hof.path.trans hpath.symm,hof.table⟩
    refine hsome (hshared.small hof fun entry hleaf => ?_)
    exact h.not_leaf hof (Or.inl ⟨k,hk,hof⟩) ((hsame kernel _).trans hleaf)

omit [DecidableEq Space] in
theorem ForestRangeUnmapped.cleared {memory' : PhysicalMemory}
    (h : ForestRangeUnmapped pagingData memory₁ kernel buffer 0 b memory')
    (h' : ForestRangeUnmapped pagingData memory' space base 0 m memory₂)
    (hkept : LargeLeavesKept (rootsOf pagingData) memory₁ memory')
    (hkept' : LargeLeavesKept (rootsOf pagingData) memory' memory₂) :
    WindowCleared (rootsOf pagingData) memory₁ space kernel base m buffer b memory₂ where
  tables other path hlength := (h'.tables other path hlength).trans (h.tables other path hlength)
  entries page entry := by
    have hof (k : Nat) : page.Of memory' (rootsOf pagingData space) (walkAddress base k) ↔
        page.Of memory₁ (rootsOf pagingData space) (walkAddress base k) :=
      ⟨fun hpage => hpage.congr fun path table hlength htable =>
          (h.tables space path hlength).symm.trans htable,
        fun hpage => hpage.congr fun path table hlength htable =>
          (h.tables space path hlength).trans htable⟩
    rw [h'.entries page entry,h.entries page entry]
    simp only [hof,PageEntry.Within,Nat.zero_le,true_imp_iff,not_exists,not_and,and_assoc]
  large := hkept.trans hkept'

/-- The clean-up leaves what was seen before if and only if it unmaps all the pages that were
mapped, and neither these nor those of the buffer were seen. -/
theorem pages_restored_iff
    (hm : ForestRangeMapped pagingData memory space entryAt base 0 n memory₁ context)
    (hshared : LeavesShared pagingData memory space base 0 n memory₁)
    (h : WindowCleared (rootsOf pagingData) memory₁ space kernel base m buffer b memory₂)
    (haligned : isAddressAligned base pageSize = true) (hn : n ≤ 2 ^ 36) (hle : m ≤ n)
    (hfew : m < n → b < n - m)
    (hnew : ∀ k < n, ∀ page,
      ¬PageEntry.Holds memory (rootsOf pagingData) page (entryAt (walkAddress base k)))
    (hpages : ∀ k < b, memory₁.leafAt (rootsOf pagingData kernel)
        (tableOffsets (walkAddress buffer k)) ≠ none → ∃ page : PageEntry,
      page.Of memory₁ (rootsOf pagingData kernel) (walkAddress buffer k)) :
    SameLeaves (rootsOf pagingData) memory memory₂ ↔
      m = n ∧ (∀ k < n, memory.leafAt (rootsOf pagingData space)
          (tableOffsets (walkAddress base k)) = none) ∧
        ∀ k < b, memory.leafAt (rootsOf pagingData kernel)
          (tableOffsets (walkAddress buffer k)) = none := by
  constructor
  · exact pages_restored_only hm hshared h haligned hn hle hfew hnew hpages
  · rintro ⟨rfl,habsent,hbuffer⟩
    exact pages_restored hm hshared h habsent hbuffer

end Window

theorem mmuReleaseMemory_returns {released : List Nat} (h : ∀ pa ∈ released, pa % pageSize = 0)
    (items : List MmuZeroWorkerItem) :
    ∃ items', released.foldlM mmuReleaseMemory items = some items' := by
  induction released generalizing items with
  | nil => exact ⟨items,rfl⟩
  | cons pa released ih =>
    have haligned : assert (isAddressAligned pa pageSize) = some () :=
      assert_eq_some.mpr (beq_iff_eq.mpr (h pa List.mem_cons_self))
    obtain ⟨items',hitems⟩ := ih (fun pa hpa => h pa (List.mem_cons_of_mem _ hpa))
      (items ++ [⟨pa,1⟩])
    refine ⟨items',?_⟩
    rw [List.foldlM_cons,mmuReleaseMemory,haligned]
    exact hitems

section Unmap

variable {Process : Type} [DecidableEq Process] {s s' : MemoryManager Process}
  {process : Option Process} {virtualAddress size : Nat}

/-- No page of the range is large, and their frames are aligned. -/
def MemoryManager.Unmappable (s : MemoryManager Process) (process : Option Process)
    (virtualAddress count : Nat) : Prop :=
  ∀ k < count, ∀ entry levels, s.memory.leafAt (s.roots process)
      (tableOffsets (walkAddress virtualAddress k)) = some (entry,levels) →
    levels = 0 ∧ entry.physicalAddress % pageSize = 0

omit [DecidableEq Process] in
theorem MemoryManager.unmap_returns (hforest : PagingForest s.memory s.pagingData)
    (haligned : virtualAddress % pageSize = 0) (hva : virtualAddress ≠ 0) (hsize : size ≠ 0)
    (hends : virtualAddress + pagesWalked virtualAddress size * pageSize ≤ qwordModulus)
    (hpages : s.Unmappable process virtualAddress (pagesWalked virtualAddress size)) :
    ∃ s', s.unmap process virtualAddress size true = some s' := by
  have hassert : assert (virtualAddress != 0) = some () := assert_eq_some.mpr (bne_iff_ne.mpr hva)
  have hassert' : assert (size != 0) = some () := assert_eq_some.mpr (bne_iff_ne.mpr hsize)
  have hlower : alignAddressLower virtualAddress pageSize = virtualAddress := by
    simp only [alignAddressLower,pageSize] at haligned ⊢
    omega
  have hbound : pagesWalked virtualAddress size < 2 ^ 20 := Nat.mod_lt _ (Nat.two_pow_pos 20)
  have hcount : pagesWalked virtualAddress size * pageSize / pageSize =
      pagesWalked virtualAddress size := Nat.mul_div_cancel _ (by decide)
  have hbytes : pagesWalked virtualAddress size * pageSize ≤ 2 ^ 48 := by
    simp only [pageSize]
    omega
  obtain ⟨walk,hwalk⟩ : ∃ walk, vmmUnmapMemoryEx s.memory
      ⟨(s.pagingData process).basePhysicalAddress⟩ virtualAddress
      (pagesWalked virtualAddress size * pageSize) true = some walk := by
    refine vmmUnmapMemoryEx_returns true hforest process hbytes ?_ ?_
    · intro k hk
      rw [hcount] at hk
      have hless := Nat.mul_lt_mul_of_pos_right hk (show 0 < pageSize by decide)
      rw [walkAddress,ptrOffset,Nat.mod_eq_of_lt (by omega)]
      omega
    · intro k hk entry levels hleaf
      rw [hcount] at hk
      exact (hpages k hk entry levels hleaf).1
  have hreleased : ∀ pa ∈ walk.context, pa % pageSize = 0 := by
    rcases vmmUnmapMemoryEx_forest true hforest process hbytes hwalk with ⟨-,rfl⟩ | ⟨-,-,hcontext⟩
    · exact fun pa hpa => absurd hpa List.not_mem_nil
    · rw [hcontext,if_pos rfl,hcount]
      intro pa hpa
      obtain ⟨k,hk,hmapped⟩ := List.mem_filterMap.mp hpa
      obtain ⟨⟨entry,levels⟩,hleaf,rfl⟩ := Option.map_eq_some_iff.mp hmapped
      have hk' : k < pagesWalked virtualAddress size := by
        have hin := (List.mem_range'_1.mp hk).2
        omega
      exact (hpages k hk' entry levels hleaf).2
  obtain ⟨items,hitems⟩ := mmuReleaseMemory_returns hreleased s.pagesToZeroList
  refine ⟨{ s with memory := walk.memory, pagesToZeroList := items },?_⟩
  have hrun : mmuUnmapMemoryEx s.memory (s.pagingData process) virtualAddress size true =
      some walk := by
    rw [mmuUnmapMemoryEx,hassert,hassert']
    simp only [Option.bind_eq_bind,Option.bind_some,alignedSize_eq]
    rw [hlower]
    exact hwalk
  rw [MemoryManager.unmap,hrun]
  simp only [Option.bind_eq_bind,Option.bind_some,hitems]
  rfl

omit [DecidableEq Process] in
theorem MemoryManager.unmap_kept (hforest : PagingForest s.memory s.pagingData)
    (h : s.unmap process virtualAddress size release = some s') :
    LargeLeavesKept s.roots s.memory s'.memory := by
  simp only [MemoryManager.unmap,Option.bind_eq_bind,Option.bind_eq_some_iff] at h
  obtain ⟨unmapped,hwalk,items,-,hs'⟩ := h
  obtain rfl := Option.some.inj hs'
  simp only [mmuUnmapMemoryEx,Option.bind_eq_bind,Option.bind_eq_some_iff] at hwalk
  obtain ⟨_,_,_,_,hwalk⟩ := hwalk
  exact vmmUnmapMemoryEx_kept hforest process hwalk

end Unmap

end Hal9000
