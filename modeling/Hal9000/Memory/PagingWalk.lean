import Hal9000.Memory.PagingTree

/-!
# One page of a walk

What mapping, unmapping and looking up one page do to the tree of paging structures and to
the leaves it resolves. The tables a range may still need are counted, so that each new
paging structure finds a frame left in the pool.
-/

namespace Hal9000

open RadixTree

@[simp] theorem tableOffsets_length (virtualAddress : Nat) :
    (tableOffsets virtualAddress).length = 4 := rfl

theorem length_of_split {virtualAddress : Nat} {path rest : List (Fin 512)} {offset : Fin 512}
    (hsplit : path ++ offset :: rest = tableOffsets virtualAddress) :
    path.length + rest.length = 3 := by
  have hlength := congrArg List.length hsplit
  simp at hlength
  omega

/-- The paths among `paths` at which no table is reached yet. -/
def missingTables (memory : PhysicalMemory) (root : Nat) (paths : Finset (List (Fin 512))) :
    Finset (List (Fin 512)) :=
  paths.filter fun path => memory.tableAt root path = none

/-- No walk along one of the paths meets a large page. -/
def NoLargePages (memory : PhysicalMemory) (root : Nat) (paths : Finset (List (Fin 512))) : Prop :=
  ∀ path offset table, path ++ [offset] ∈ paths → memory.tableAt root path = some table →
    (memory table offset).present = true → (memory table offset).pageSize = false

/-- What a walk that writes entries keeps: `paths` are those of the tables it may pass. -/
structure WalkInv (paths : Finset (List (Fin 512))) (memory : PhysicalMemory)
    (pagingData : PagingData) : Prop where
  tree : PagingTree memory pagingData
  small : NoLargePages memory pagingData.basePhysicalAddress paths

/-- What a walk that maps pages keeps: the pool has the tables that are still missing. -/
structure MapInv (paths : Finset (List (Fin 512))) (memory : PhysicalMemory)
    (pagingData : PagingData) : Prop extends WalkInv paths memory pagingData where
  enough : pagingData.currentIndex +
    (missingTables memory pagingData.basePhysicalAddress paths).card ≤ pagingData.numberOfFrames

/-- Only the number of frames in use differs. -/
def PagingData.SamePool (pagingData pagingData' : PagingData) : Prop :=
  pagingData' = { pagingData with currentIndex := pagingData'.currentIndex }

/-- The leaf of a page after it is mapped to `entry`. -/
def mapLeaf (invalidate : Bool) (entry : PtEntry) (old : Option (PtEntry × Nat)) :
    Option (PtEntry × Nat) :=
  if invalidate || old.isNone then some (entry,0) else old

section Entries

variable {memory : PhysicalMemory} {root table : Nat} {path : List (Fin 512)}
  {offset : Fin 512}

theorem leafAt_lastLevel (htable : memory.tableAt root path = some table) (offset : Fin 512) :
    memory.leafAt root (path ++ [offset]) =
      if (memory table offset).present then some (memory table offset,0) else none := by
  have hlast : memory.leafAt root (path ++ [offset]) = memory.leafAt table [offset] :=
    leafAt_append htable (by simp)
  rw [hlast]
  cases hpresent : (memory table offset).present with
  | false => exact leafAt_empty (slot_of_not_present hpresent) []
  | true =>
    apply leafAt_last
    simp only [PtEntry.slot,hpresent]
    cases (memory table offset).pageSize <;> simp

theorem tableAt_concat (htable : memory.tableAt root path = some table)
    (hpresent : (memory table offset).present = true)
    (hsmall : (memory table offset).pageSize = false) :
    memory.tableAt root (path ++ [offset]) = some (memory table offset).physicalAddress := by
  rw [PhysicalMemory.tableAt,follow_concat htable,target_of_present hpresent hsmall]

theorem tableAt_concat_none (htable : memory.tableAt root path = some table)
    (hpresent : (memory table offset).present = false) :
    memory.tableAt root (path ++ [offset]) = none := by
  rw [PhysicalMemory.tableAt,follow_concat htable,target,slot_of_not_present hpresent]

end Entries

section Level

variable {Context : Type} {walkCallback : PageWalkCallback Context} {virtualAddress level table : Nat}
  {offset : Fin 512} {s s' : WalkState Context}

theorem walkStructures_stop (offsets : List (Fin 512))
    (h : walkCallback s table offset virtualAddress level = some (false,s')) :
    walkStructures walkCallback virtualAddress level (offset :: offsets) table s = some s' := by
  simp [walkStructures,h]

theorem walkStructures_next (offsets : List (Fin 512))
    (h : walkCallback s table offset virtualAddress level = some (true,s'))
    (hsmall : level = pagingTablesLastLevel ∨ (s'.memory table offset).pageSize = false) :
    walkStructures walkCallback virtualAddress level (offset :: offsets) table s =
      walkStructures walkCallback virtualAddress (level + 1) offsets
        (s'.memory table offset).physicalAddress s' := by
  rcases hsmall with rfl | hsmall
  · simp [walkStructures,h]
  · simp [walkStructures,h,hsmall]

theorem assertCallback_eq (hva : virtualAddress ≠ 0) (level : Nat) (hfirst : 1 ≤ level)
    (hlast : level ≤ 4) : assertCallback virtualAddress level = some () := by
  simp [assertCallback,assert,hva,pagingTablesFirstLevel,pagingTablesLastLevel,hfirst,hlast]

end Level

section Returns

variable {Context : Type} {walkCallback : PageWalkCallback Context} {root virtualAddress : Nat}
  {inv : WalkState Context → Prop}

/-- What a callback keeps at every entry on the path of an address: an invariant, the table it
was called with, and that it goes on only at a present entry. -/
def KeepsOnPath (walkCallback : PageWalkCallback Context) (root virtualAddress : Nat)
    (inv : WalkState Context → Prop) : Prop :=
  ∀ s s' continueWalk q table offset rest, inv s → q ++ offset :: rest = tableOffsets virtualAddress →
    s.memory.tableAt root q = some table →
    walkCallback s table offset virtualAddress (q.length + 1) = some (continueWalk,s') →
    inv s' ∧ (continueWalk = true → rest ≠ [] → s'.memory.tableAt root q = some table ∧
      (s'.memory table offset).present = true)

private theorem walkStructures_keeps (hkeeps : KeepsOnPath walkCallback root virtualAddress inv)
    (rest : List (Fin 512)) {q : List (Fin 512)} (hsplit : q ++ rest = tableOffsets virtualAddress)
    {table : Nat} {s s' : WalkState Context} (hs : inv s)
    (htable : rest ≠ [] → s.memory.tableAt root q = some table)
    (h : walkStructures walkCallback virtualAddress (q.length + 1) rest table s = some s') :
    inv s' := by
  induction rest generalizing q table s with
  | nil =>
    rw [← Option.some.inj h]
    exact hs
  | cons offset rest ih =>
    have htable := htable (by simp)
    simp only [walkStructures,Option.bind_eq_bind,Option.bind_eq_some_iff] at h
    obtain ⟨⟨continueWalk,s₁⟩,hstep,h⟩ := h
    obtain ⟨hinv,hgoes⟩ := hkeeps s s₁ continueWalk q table offset rest hs hsplit htable hstep
    cases continueWalk with
    | false =>
      rw [← Option.some.inj h]
      exact hinv
    | true =>
      obtain ⟨_,hsmall,h⟩ := Option.bind_eq_some_iff.mp h
      refine ih (q := q ++ [offset]) (by simpa using hsplit) hinv ?_ (by simpa using h)
      intro hrest
      obtain ⟨htable₁,hpresent⟩ := hgoes rfl hrest
      have hlevel : q.length ≠ 3 := by
        have hlen := congrArg List.length hsplit
        have hpos := List.length_pos_of_ne_nil hrest
        simp at hlen
        omega
      have hsmall : (s₁.memory table offset).pageSize = false := by
        simpa [pagingTablesLastLevel,hlevel] using hsmall
      exact tableAt_concat htable₁ hpresent hsmall

/-- If the callback keeps an invariant on the path of every page, a walk that returns keeps
it. -/
theorem vmWalkPagingTables_keeps {cr3 : Pml4} {baseAddress size : Nat}
    (hroot : cr3.physicalAddress * pageSize = root)
    (hkeeps : ∀ k, k < (size + (pageSize - 1)) / pageSize →
      KeepsOnPath walkCallback root (ptrOffset baseAddress (k * pageSize)) inv)
    {s s' : WalkState Context} (hs : inv s)
    (h : vmWalkPagingTables walkCallback cr3 baseAddress size s = some s') : inv s' := by
  have hloop : ∀ count first s, first + count = (size + (pageSize - 1)) / pageSize → inv s →
      walkPages walkCallback cr3 baseAddress count (first * pageSize) s = some s' → inv s' := by
    intro count
    induction count with
    | zero =>
      intro first s _ hs h
      rw [← Option.some.inj h]
      exact hs
    | succ count ih =>
      intro first s hcount hs h
      simp only [walkPages,Option.bind_eq_bind,Option.bind_eq_some_iff] at h
      obtain ⟨s₁,hpage,h⟩ := h
      rw [hroot] at hpage
      have hfirst : first < (size + (pageSize - 1)) / pageSize := by omega
      have hinv := walkStructures_keeps (q := []) (hkeeps first hfirst) _ rfl hs (fun _ => rfl)
        hpage
      have hoffset : first * pageSize + pageSize = (first + 1) * pageSize := by ring
      rw [hoffset] at h
      exact ih (first + 1) s₁ (by omega) hinv h
  refine hloop ((size + (pageSize - 1)) / pageSize) 0 s (by omega) hs ?_
  simpa [vmWalkPagingTables] using h

theorem vmMapPage_cases {vmmData : VmmData} {request : MapRequest} {s s' : WalkState PagingData}
    {table : Nat} {offset : Fin 512} {level : Nat} {continueWalk : Bool}
    (h : vmMapPage vmmData request s table offset virtualAddress level =
      some (continueWalk,s')) :
    continueWalk = true ∧
      ((s.memory table offset).present = true ∧ (level = 4 → request.invalidate = false) ∧ s' = s ∨
        level = 4 ∧ ((s.memory table offset).present = true → request.invalidate = true) ∧
          s' = ⟨s.memory.writeEntry table offset
            (mapEntry vmmData request s.context.kernelSpace virtualAddress),s.context⟩ ∨
        level < 4 ∧ (s.memory table offset).present = false ∧
          vmSetupPagingStructure s.memory s.context table offset = some s') := by
  simp only [vmMapPage,assertCallback,Option.bind_eq_bind,Option.bind_eq_some_iff] at h
  obtain ⟨_,⟨_,_,hlevel⟩,h⟩ := h
  have hlevel : level ≤ 4 := by
    have hbounds := of_decide_eq_true (assert_eq_some.mp hlevel)
    simp only [pagingTablesLastLevel] at hbounds
    exact hbounds.2
  split at h
  · rename_i hkeep
    obtain ⟨rfl,rfl⟩ := Prod.mk.inj (Option.some.inj h)
    simp only [Bool.and_eq_true] at hkeep
    refine ⟨rfl,Or.inl ⟨hkeep.1,?_,rfl⟩⟩
    rintro rfl
    simpa [pagingTablesLastLevel] using hkeep.2
  · rename_i hset
    split at h
    · rename_i hlast
      obtain ⟨rfl,rfl⟩ := Prod.mk.inj (Option.some.inj h)
      refine ⟨rfl,Or.inr (Or.inl ⟨hlast,?_,rfl⟩)⟩
      intro hpresent
      simpa [hpresent,hlast] using hset
    · rename_i hnotlast
      simp only [Option.bind_eq_some_iff] at h
      obtain ⟨s₁,hsetup,h⟩ := h
      obtain ⟨rfl,rfl⟩ := Prod.mk.inj (Option.some.inj h)
      have hne : ¬ level = 4 := hnotlast
      refine ⟨rfl,Or.inr (Or.inr ⟨by omega,?_,hsetup⟩)⟩
      simpa [pagingTablesLastLevel,hne] using hset

theorem room_of_setup {memory : PhysicalMemory} {pagingData : PagingData} {table : Nat}
    {offset : Fin 512} {s : WalkState PagingData}
    (h : vmSetupPagingStructure memory pagingData table offset = some s) :
    pagingData.currentIndex < pagingData.numberOfFrames := by
  simp only [vmSetupPagingStructure,vmRetrieveNextPhysicalAddressForPagingStructure,
    Option.bind_eq_bind,Option.bind_eq_some_iff] at h
  obtain ⟨_,⟨_,hroom,_⟩,_⟩ := h
  simpa using hroom

theorem vmUnmapPage_cases {releaseMemory : Bool} {s s' : WalkState (List Nat)} {table : Nat}
    {offset : Fin 512} {level : Nat} {continueWalk : Bool}
    (h : vmUnmapPage releaseMemory s table offset virtualAddress level =
      some (continueWalk,s')) :
    (s.memory table offset).present = false ∧ continueWalk = false ∧ s' = s ∨
      (s.memory table offset).present = true ∧ continueWalk = true ∧
        (level = 4 ∧ s' = ⟨s.memory.writeEntry table offset ptEntryZero,if releaseMemory then
            s.context ++ [(s.memory table offset).physicalAddress] else s.context⟩ ∨
          level ≠ 4 ∧ s' = s) := by
  simp only [vmUnmapPage,Option.bind_eq_bind,Option.bind_eq_some_iff] at h
  obtain ⟨_,_,h⟩ := h
  split at h
  · rename_i hpresent
    obtain ⟨rfl,rfl⟩ := Prod.mk.inj (Option.some.inj h)
    exact Or.inl ⟨by simpa using hpresent,rfl,rfl⟩
  · rename_i hpresent
    have hpresent : (s.memory table offset).present = true := by simpa using hpresent
    split at h
    · rename_i hlast
      obtain ⟨rfl,rfl⟩ := Prod.mk.inj (Option.some.inj h)
      exact Or.inr ⟨hpresent,rfl,Or.inl ⟨hlast,rfl⟩⟩
    · rename_i hlast
      obtain ⟨rfl,rfl⟩ := Prod.mk.inj (Option.some.inj h)
      exact Or.inr ⟨hpresent,rfl,Or.inr ⟨hlast,rfl⟩⟩

end Returns

section Map

variable {memory : PhysicalMemory} {pagingData : PagingData} {paths : Finset (List (Fin 512))}
  {q : List (Fin 512)} {table : Nat} {offset : Fin 512}

theorem linkNext_missing (h : PagingTree memory pagingData)
    (hroom : pagingData.currentIndex < pagingData.numberOfFrames)
    (hpaths : ∀ path ∈ paths, path.length ≤ 3) (hq : q.length < 3)
    (htable : memory.tableAt pagingData.basePhysicalAddress q = some table)
    (hempty : (memory table offset).slot = .empty) :
    missingTables (linkNext memory pagingData table offset) pagingData.basePhysicalAddress paths =
      (missingTables memory pagingData.basePhysicalAddress paths).erase (q ++ [offset]) := by
  ext path
  simp only [missingTables,Finset.mem_filter,Finset.mem_erase]
  constructor
  · intro hpath
    obtain ⟨hin,hnone⟩ := hpath
    refine ⟨?_,hin,?_⟩
    · rintro rfl
      rw [linkNext_tableAt_self h hroom hq htable] at hnone
      cases hnone
    · cases hold : memory.tableAt pagingData.basePhysicalAddress path with
      | none => rfl
      | some m =>
        rw [linkNext_tableAt_mono h hroom hq htable hempty (hpaths path hin) hold] at hnone
        cases hnone
  · intro hpath
    obtain ⟨hne,hin,hnone⟩ := hpath
    refine ⟨hin,?_⟩
    cases hnew : (linkNext memory pagingData table offset).tableAt
        pagingData.basePhysicalAddress path with
    | none => rfl
    | some m =>
      rcases linkNext_tableAt_cases h hroom hq htable (hpaths path hin) hnew with ⟨heq,_⟩ | hold
      · exact absurd heq hne
      · rw [hnone] at hold
        cases hold

theorem linkNext_walkInv (h : WalkInv paths memory pagingData)
    (hroom : pagingData.currentIndex < pagingData.numberOfFrames)
    (hpaths : ∀ path ∈ paths, path.length ≤ 3) (hq : q.length < 3)
    (htable : memory.tableAt pagingData.basePhysicalAddress q = some table)
    (hempty : (memory table offset).slot = .empty) :
    WalkInv paths (linkNext memory pagingData table offset) pagingData.next := by
  refine ⟨linkNext_pagingTree h.tree hroom hq htable hempty,?_⟩
  intro path i m hin hm hp
  have hlen : path.length ≤ 3 := by
    have := hpaths _ hin
    simp at this
    omega
  by_cases hfresh : m = pagingData.frame pagingData.currentIndex
  · subst m
    rcases linkNext_tableAt_cases h.tree hroom hq htable hlen hm with ⟨rfl,_⟩ | hold
    · have hrow : linkNext memory pagingData table offset
          (pagingData.frame pagingData.currentIndex) i = ptEntryZero := by
        have hne : pagingData.frame pagingData.currentIndex ≠ table := by
          rintro heq
          exact h.tree.spare_unreached le_rfl hroom q (by omega) (heq ▸ htable)
        unfold linkNext link
        rw [write_of_ne _ (Or.inl hne),Function.update_self]
      rw [hrow]
      rfl
    · exact absurd hold (h.tree.spare_unreached le_rfl hroom path hlen)
  · by_cases hhere : m = table ∧ i = offset
    · obtain ⟨rfl,rfl⟩ := hhere
      simp only [linkNext,link,write_same]
      rfl
    · rw [linkNext_entry hfresh hhere] at hp ⊢
      rcases linkNext_tableAt_cases h.tree hroom hq htable hlen hm with ⟨_,heq⟩ | hold
      · exact absurd heq hfresh
      · exact h.small path i m hin hold hp

theorem linkNext_mapInv (h : MapInv paths memory pagingData)
    (hpaths : ∀ path ∈ paths, path.length ≤ 3) (hmem : q ++ [offset] ∈ paths)
    (htable : memory.tableAt pagingData.basePhysicalAddress q = some table)
    (hpresent : (memory table offset).present = false) :
    pagingData.currentIndex < pagingData.numberOfFrames ∧
      MapInv paths (linkNext memory pagingData table offset) pagingData.next := by
  have hempty := slot_of_not_present hpresent
  have hq : q.length < 3 := by
    have := hpaths _ hmem
    simp at this
    omega
  have hmissing : q ++ [offset] ∈ missingTables memory pagingData.basePhysicalAddress paths :=
    Finset.mem_filter.mpr ⟨hmem,tableAt_concat_none htable hpresent⟩
  have hcard := Finset.card_pos.mpr ⟨_,hmissing⟩
  have henough := h.enough
  have hroom : pagingData.currentIndex < pagingData.numberOfFrames := by omega
  refine ⟨hroom,⟨linkNext_walkInv h.toWalkInv hroom hpaths hq htable hempty,?_⟩⟩
  have hless := linkNext_missing h.tree hroom hpaths hq htable hempty
  change pagingData.currentIndex + 1 + (missingTables _ pagingData.basePhysicalAddress paths).card
    ≤ pagingData.numberOfFrames
  rw [hless,Finset.card_erase_of_mem hmissing]
  omega

theorem writeEntry_lastLevel (h : PagingTree memory pagingData) (hq : q.length = 3)
    (htable : memory.tableAt pagingData.basePhysicalAddress q = some table) (offset : Fin 512)
    (entry : PtEntry) :
    (∀ path, path.length ≤ 3 →
      (memory.writeEntry table offset entry).tableAt pagingData.basePhysicalAddress path =
        memory.tableAt pagingData.basePhysicalAddress path) ∧
    (memory.writeEntry table offset entry).leafAt pagingData.basePhysicalAddress (q ++ [offset]) =
      (if entry.present then some (entry,0) else none) ∧
    ∀ path, path.length = 4 → path ≠ q ++ [offset] →
      (memory.writeEntry table offset entry).leafAt pagingData.basePhysicalAddress path =
        memory.leafAt pagingData.basePhysicalAddress path := by
  have htables : ∀ path, path.length ≤ 3 →
      (memory.writeEntry table offset entry).tableAt pagingData.basePhysicalAddress path =
        memory.tableAt pagingData.basePhysicalAddress path :=
    fun path hpath => writeLast_follow h.uniquePaths hq htable hpath
  refine ⟨htables,?_,?_⟩
  · rw [leafAt_lastLevel ((htables q (by omega)).trans htable) offset]
    have hentry : memory.writeEntry table offset entry table offset = entry := write_same ..
    rw [hentry]
  · intro path hpath hne
    exact writeLast_leafAt_of_ne h.uniquePaths hq htable (by omega) hne

theorem isPagingFrame_congr {memory' : PhysicalMemory}
    (hsame : ∀ path, path.length ≤ 3 → memory'.tableAt pagingData.basePhysicalAddress path =
      memory.tableAt pagingData.basePhysicalAddress path) (address : Nat) :
    IsPagingFrame memory' pagingData address ↔ IsPagingFrame memory pagingData address := by
  refine or_congr_left (exists_congr fun path => and_congr_right fun hlen => ?_)
  rw [hsame path hlen]

theorem writeEntry_walkInv (h : WalkInv paths memory pagingData)
    (hpaths : ∀ path ∈ paths, path.length ≤ 3) (hq : q.length = 3)
    (htable : memory.tableAt pagingData.basePhysicalAddress q = some table) (offset : Fin 512)
    (entry : PtEntry) : WalkInv paths (memory.writeEntry table offset entry) pagingData := by
  have htables := (writeEntry_lastLevel h.tree hq htable offset entry).1
  refine ⟨h.tree.congr htables,?_⟩
  intro path i m hin hm hpresent
  have hlen : path.length ≤ 2 := by
    have := hpaths _ hin
    simp at this
    omega
  rw [htables path (by omega)] at hm
  have hne : m ≠ table := by
    rintro rfl
    have heq := h.tree.uniquePaths path q m (by omega) (by omega) hm htable
    subst path
    omega
  have hentry : memory.writeEntry table offset entry m i = memory m i :=
    write_of_ne entry (Or.inl hne)
  rw [hentry] at hpresent ⊢
  exact h.small path i m hin hm hpresent

theorem writeEntry_mapInv (h : MapInv paths memory pagingData)
    (hpaths : ∀ path ∈ paths, path.length ≤ 3) (hq : q.length = 3)
    (htable : memory.tableAt pagingData.basePhysicalAddress q = some table) (offset : Fin 512)
    (entry : PtEntry) : MapInv paths (memory.writeEntry table offset entry) pagingData := by
  refine ⟨writeEntry_walkInv h.toWalkInv hpaths hq htable offset entry,?_⟩
  have hsame : missingTables (memory.writeEntry table offset entry)
      pagingData.basePhysicalAddress paths =
      missingTables memory pagingData.basePhysicalAddress paths := by
    apply Finset.filter_congr
    intro path hpath
    rw [(writeEntry_lastLevel h.tree hq htable offset entry).1 path (hpaths path hpath)]
  rw [hsame]
  exact h.enough

variable (vmmData : VmmData) (request : MapRequest) {virtualAddress : Nat}

/-- What mapping a page does: the leaf of the page is the only one that changes. -/
structure PageMapped (vmmData : VmmData) (request : MapRequest)
    (paths : Finset (List (Fin 512))) (virtualAddress : Nat) (path : List (Fin 512))
    (s s' : WalkState PagingData) : Prop where
  inv : MapInv paths s'.memory s'.context
  pool : s.context.SamePool s'.context
  frames : ∀ address, IsPagingFrame s'.memory s'.context address →
    IsPagingFrame s.memory s.context address
  leaf : s'.memory.leafAt s.context.basePhysicalAddress path =
    mapLeaf request.invalidate
      (mapEntry vmmData request s.context.kernelSpace virtualAddress)
      (s.memory.leafAt s.context.basePhysicalAddress path)
  others : ∀ path', path'.length = 4 → path' ≠ path →
    s'.memory.leafAt s.context.basePhysicalAddress path' =
      s.memory.leafAt s.context.basePhysicalAddress path'

private theorem vmMapPage_table {s : WalkState PagingData}
    (h : MapInv paths s.memory s.context) (hpaths : ∀ path ∈ paths, path.length ≤ 3)
    (hmem : q ++ [offset] ∈ paths)
    (htable : s.memory.tableAt s.context.basePhysicalAddress q = some table)
    (hva : virtualAddress ≠ 0) :
    ∃ s₁, vmMapPage vmmData request s table offset virtualAddress (q.length + 1) =
        some (true,s₁) ∧
      MapInv paths s₁.memory s₁.context ∧ s.context.SamePool s₁.context ∧
      (∀ address, IsPagingFrame s₁.memory s₁.context address →
        IsPagingFrame s.memory s.context address) ∧
      (s₁.memory table offset).pageSize = false ∧
      s₁.memory.tableAt s.context.basePhysicalAddress (q ++ [offset]) =
        some (s₁.memory table offset).physicalAddress ∧
      ∀ path, path.length = 4 → s₁.memory.leafAt s.context.basePhysicalAddress path =
        s.memory.leafAt s.context.basePhysicalAddress path := by
  have hq : q.length < 3 := by
    have := hpaths _ hmem
    simp at this
    omega
  have hassert := assertCallback_eq hva (q.length + 1) (by omega) (by omega)
  have hlevel : (q.length + 1 == pagingTablesLastLevel) = false := by
    simp [pagingTablesLastLevel]
    omega
  have hlevel' : ¬ q.length + 1 = pagingTablesLastLevel := by
    simp [pagingTablesLastLevel]
    omega
  unfold vmMapPage
  rw [hassert]
  cases hpresent : (s.memory table offset).present with
  | true =>
    have hsmall := h.small q offset table hmem htable hpresent
    refine ⟨s,?_,h,rfl,fun _ hframe => hframe,hsmall,tableAt_concat htable hpresent hsmall,
      fun _ _ => rfl⟩
    simp [hlevel]
  | false =>
    obtain ⟨hroom,hinv⟩ := linkNext_mapInv h hpaths hmem htable hpresent
    have hempty := slot_of_not_present hpresent
    have hentry : linkNext s.memory s.context table offset table offset =
        pteMap (s.context.frame s.context.currentIndex) (pagingStructureFlags s.context) :=
      write_same ..
    refine ⟨⟨linkNext s.memory s.context table offset,s.context.next⟩,?_,hinv,rfl,?_,?_,?_,?_⟩
    · simp [hlevel',vmSetupPagingStructure_eq h.tree hroom hq htable]
    · intro address hframe
      rcases hframe with ⟨path,hlen,hm⟩ | hpool
      · rcases linkNext_tableAt_cases h.tree hroom hq htable hlen hm with ⟨_,rfl⟩ | hold
        · exact Or.inr ⟨_,hroom,rfl⟩
        · exact Or.inl ⟨path,hlen,hold⟩
      · exact Or.inr hpool
    · simp only [hentry]
      rfl
    · simp only [hentry]
      exact linkNext_tableAt_self h.tree hroom hq htable
    · intro path hpath
      exact linkNext_leafAt h.tree hroom hq htable hempty hpath

private theorem vmMapPage_page (offset : Fin 512) {s : WalkState PagingData}
    (h : MapInv paths s.memory s.context) (hpaths : ∀ path ∈ paths, path.length ≤ 3)
    (hq : q.length = 3)
    (htable : s.memory.tableAt s.context.basePhysicalAddress q = some table)
    (hva : virtualAddress ≠ 0) :
    ∃ s', vmMapPage vmmData request s table offset virtualAddress 4 = some (true,s') ∧
      PageMapped vmmData request paths virtualAddress (q ++ [offset]) s s' := by
  have hleaf := leafAt_lastLevel htable offset
  unfold vmMapPage
  rw [assertCallback_eq hva 4 (by decide) (by decide)]
  by_cases hkeep : (s.memory table offset).present = true ∧ request.invalidate = false
  · refine ⟨s,?_,h,rfl,fun _ hframe => hframe,?_,fun _ _ _ => rfl⟩
    · simp [hkeep]
    · rw [hleaf]
      simp [mapLeaf,hkeep]
  · let entry := mapEntry vmmData request s.context.kernelSpace virtualAddress
    obtain ⟨htables,hself,hothers⟩ := writeEntry_lastLevel h.tree hq htable offset entry
    refine ⟨{ s with memory := s.memory.writeEntry table offset entry },?_,
      writeEntry_mapInv h hpaths hq htable offset entry,rfl,
      fun _ => (isPagingFrame_congr htables _).mp,?_,hothers⟩
    · have hguard : ((s.memory table offset).present &&
          !(4 == pagingTablesLastLevel && request.invalidate)) = false := by
        cases hpresent : (s.memory table offset).present <;>
          cases hinvalidate : request.invalidate <;> simp_all [pagingTablesLastLevel]
      simp only [Option.bind_eq_bind,Option.bind_some,hguard]
      rfl
    · rw [hself,hleaf]
      cases hpresent : (s.memory table offset).present <;>
        cases hinvalidate : request.invalidate <;>
        simp_all [mapLeaf,entry,mapEntry,pteMap]

/-- A walk that maps one page and returns has changed the leaf of the page only. -/
structure PageReturned (vmmData : VmmData) (request : MapRequest) (virtualAddress : Nat)
    (s s' : WalkState PagingData) : Prop where
  tree : PagingTree s'.memory s'.context
  pool : s.context.SamePool s'.context
  leaf : s'.memory.leafAt s.context.basePhysicalAddress (tableOffsets virtualAddress) =
    mapLeaf request.invalidate
      (mapEntry vmmData request s.context.kernelSpace virtualAddress)
      (s.memory.leafAt s.context.basePhysicalAddress (tableOffsets virtualAddress))
  others : ∀ path, path.length = 4 → path ≠ tableOffsets virtualAddress →
    s'.memory.leafAt s.context.basePhysicalAddress path =
      s.memory.leafAt s.context.basePhysicalAddress path

private theorem walkStructures_map_returns (rest : List (Fin 512)) (hrest : rest ≠ [])
    (hsplit : q ++ rest = tableOffsets virtualAddress) {s s' : WalkState PagingData}
    (h : PagingTree s.memory s.context)
    (htable : s.memory.tableAt s.context.basePhysicalAddress q = some table)
    (hwalk : walkStructures (vmMapPage vmmData request) virtualAddress (q.length + 1) rest table s =
      some s') : PageReturned vmmData request virtualAddress s s' := by
  induction rest generalizing q table s with
  | nil => exact absurd rfl hrest
  | cons offset rest ih =>
    have hlen := length_of_split hsplit
    simp only [walkStructures,Option.bind_eq_bind,Option.bind_eq_some_iff] at hwalk
    obtain ⟨⟨continueWalk,s₁⟩,hstep,hwalk⟩ := hwalk
    obtain ⟨rfl,hcases⟩ := vmMapPage_cases hstep
    obtain ⟨_,hsmall,hwalk⟩ := Option.bind_eq_some_iff.mp hwalk
    cases rest with
    | nil =>
      have hq : q.length = 3 := by simpa using hlen
      have hlast : q.length + 1 = 4 := by omega
      obtain rfl : s₁ = s' := by simpa [walkStructures] using hwalk
      have hleaf := leafAt_lastLevel htable offset
      rw [hsplit] at hleaf
      rcases hcases with ⟨hpresent,hkeep,rfl⟩ | ⟨_,hset,rfl⟩ | ⟨hlevel,_⟩
      · refine ⟨h,rfl,?_,fun _ _ _ => rfl⟩
        rw [hleaf]
        simp [mapLeaf,hpresent,hkeep hlast]
      · obtain ⟨htables,hself,hothers⟩ := writeEntry_lastLevel h hq htable offset
          (mapEntry vmmData request s.context.kernelSpace virtualAddress)
        rw [hsplit] at hself hothers
        refine ⟨h.congr htables,rfl,?_,hothers⟩
        rw [hself,hleaf]
        cases hpresent : (s.memory table offset).present
        · simp [mapLeaf,mapEntry,pteMap]
        · simp [mapLeaf,mapEntry,pteMap,hset hpresent]
      · omega
    | cons offset' rest =>
      have hlevel : q.length ≠ 3 := by
        simp at hlen
        omega
      have hsmall : (s₁.memory table offset).pageSize = false := by
        simpa [pagingTablesLastLevel,hlevel] using hsmall
      have hgo : PagingTree s₁.memory s₁.context ∧ s.context.SamePool s₁.context ∧
          s₁.memory.tableAt s.context.basePhysicalAddress (q ++ [offset]) =
            some (s₁.memory table offset).physicalAddress ∧
          ∀ path, path.length = 4 → s₁.memory.leafAt s.context.basePhysicalAddress path =
            s.memory.leafAt s.context.basePhysicalAddress path := by
        rcases hcases with ⟨hpresent,_,rfl⟩ | ⟨hlast,_⟩ | ⟨_,hpresent,hsetup⟩
        · exact ⟨h,rfl,tableAt_concat htable hpresent hsmall,fun _ _ => rfl⟩
        · omega
        · have hroom := room_of_setup hsetup
          have hq : q.length < 3 := by
            simp at hlen
            omega
          have hempty := slot_of_not_present hpresent
          rw [vmSetupPagingStructure_eq h hroom hq htable] at hsetup
          obtain rfl := Option.some.inj hsetup
          have hentry : linkNext s.memory s.context table offset table offset =
              pteMap (s.context.frame s.context.currentIndex) (pagingStructureFlags s.context) :=
            write_same ..
          refine ⟨linkNext_pagingTree h hroom hq htable hempty,rfl,?_,fun path hpath =>
            linkNext_leafAt h hroom hq htable hempty hpath⟩
          simp only [hentry]
          exact linkNext_tableAt_self h hroom hq htable
      obtain ⟨htree₁,hpool₁,htable₁,hleaves₁⟩ := hgo
      have hbase : s₁.context.basePhysicalAddress = s.context.basePhysicalAddress := by rw [hpool₁]
      have hkernel : s₁.context.kernelSpace = s.context.kernelSpace := by rw [hpool₁]
      obtain ⟨htree',hpool',hleaf',hothers'⟩ := ih (q := q ++ [offset]) (by simp)
        (by simpa using hsplit) htree₁ (by rw [hbase]; exact htable₁) (by simpa using hwalk)
      rw [hbase] at hleaf' hothers'
      rw [hkernel,hleaves₁ _ rfl] at hleaf'
      refine ⟨htree',?_,hleaf',?_⟩
      · rw [PagingData.SamePool,hpool',hpool₁]
      · intro path hpath hne
        rw [hothers' path hpath hne,hleaves₁ path hpath]

theorem vmmMapMemoryInternal_page (h : PagingTree memory pagingData) {physicalAddress : Nat}
    (hword : virtualAddress < qwordModulus) {pageRights : PageRights}
    {invalidate uncacheable : Bool} {s : WalkState PagingData}
    (hmap : vmmMapMemoryInternal vmmData memory pagingData physicalAddress pageSize virtualAddress
      pageRights invalidate uncacheable = some s) :
    PageReturned vmmData ⟨physicalAddress,virtualAddress,pageRights,invalidate,uncacheable⟩
      virtualAddress ⟨memory,pagingData⟩ s := by
  simp only [vmmMapMemoryInternal,Option.bind_eq_bind,Option.bind_eq_some_iff] at hmap
  obtain ⟨_,_,_,_,hwalk⟩ := hmap
  have hcount : (pageSize + (pageSize - 1)) / pageSize = 1 := rfl
  have haddress : ptrOffset virtualAddress 0 = virtualAddress := Nat.mod_eq_of_lt hword
  simp only [vmWalkPagingTables,hcount,walkPages,Option.bind_eq_bind,Option.bind_eq_some_iff,
    haddress,h.wellFormed.cr3_table] at hwalk
  obtain ⟨s₁,hwalk,hlast⟩ := hwalk
  obtain rfl := Option.some.inj hlast
  exact walkStructures_map_returns vmmData _ (q := []) _ (by simp) rfl h rfl hwalk

private theorem walkStructures_map (hpaths : ∀ path ∈ paths, path.length ≤ 3)
    (hva : virtualAddress ≠ 0) {path : List (Fin 512)} (hpath : path.length = 4)
    (hneeded : ∀ path', path' ≠ [] → path'.length ≤ 3 → path' <+: path → path' ∈ paths)
    (rest : List (Fin 512)) (hrest : rest ≠ []) (hsplit : q ++ rest = path)
    {s : WalkState PagingData} (h : MapInv paths s.memory s.context)
    (htable : s.memory.tableAt s.context.basePhysicalAddress q = some table) :
    ∃ s', walkStructures (vmMapPage vmmData request) virtualAddress (q.length + 1) rest table s =
        some s' ∧
      PageMapped vmmData request paths virtualAddress path s s' := by
  induction rest generalizing q table s with
  | nil => exact absurd rfl hrest
  | cons offset rest ih =>
    have hlen : q.length + rest.length = 3 := by
      rw [← hsplit] at hpath
      simp at hpath
      omega
    cases rest with
    | nil =>
      have hq : q.length = 3 := by simpa using hlen
      obtain ⟨s',hstep,hmapped⟩ := vmMapPage_page vmmData request offset h hpaths hq htable hva
      rw [hsplit] at hmapped
      refine ⟨s',?_,hmapped⟩
      rw [hq,walkStructures_next [] hstep (Or.inl rfl)]
      rfl
    | cons offset' rest =>
      have hmem : q ++ [offset] ∈ paths := by
        apply hneeded
        · simp
        · simp at hlen ⊢
          omega
        · rw [← hsplit]
          exact ⟨offset' :: rest,by simp⟩
      obtain ⟨s₁,hstep,hinv₁,hpool₁,hframes₁,hsmall,htable₁,hleaves₁⟩ :=
        vmMapPage_table vmmData request h hpaths hmem htable hva
      have hbase : s₁.context.basePhysicalAddress = s.context.basePhysicalAddress := by
        rw [hpool₁]
      have hkernel : s₁.context.kernelSpace = s.context.kernelSpace := by rw [hpool₁]
      obtain ⟨s',hwalk,hmapped⟩ := ih (q := q ++ [offset]) (by simp) (by simpa using hsplit)
        hinv₁ (by rw [hbase]; exact htable₁)
      obtain ⟨hinv',hpool',hframes',hleaf',hothers'⟩ := hmapped
      rw [hbase] at hleaf' hothers'
      rw [hkernel,hleaves₁ path hpath] at hleaf'
      refine ⟨s',?_,hinv',?_,fun address hframe => hframes₁ address (hframes' address hframe),
        hleaf',?_⟩
      · rw [walkStructures_next _ hstep (Or.inr hsmall)]
        simpa using hwalk
      · rw [PagingData.SamePool,hpool',hpool₁]
      · intro path' hpath' hne
        rw [hothers' path' hpath' hne,hleaves₁ path' hpath']

theorem mapPage_spec (hpaths : ∀ path ∈ paths, path.length ≤ 3) (hva : virtualAddress ≠ 0)
    (hneeded : ∀ path', path' ≠ [] → path'.length ≤ 3 → path' <+: tableOffsets virtualAddress →
      path' ∈ paths)
    {s : WalkState PagingData} (h : MapInv paths s.memory s.context) :
    ∃ s', walkStructures (vmMapPage vmmData request) virtualAddress 1
        (tableOffsets virtualAddress) s.context.basePhysicalAddress s = some s' ∧
      PageMapped vmmData request paths virtualAddress (tableOffsets virtualAddress) s s' :=
  walkStructures_map vmmData request (q := []) hpaths hva rfl hneeded _ (by simp) rfl h rfl

/-- What unmapping a page does: the page has no leaf, every other leaf is kept. -/
structure PageUnmapped (paths : Finset (List (Fin 512))) (pagingData : PagingData)
    (path : List (Fin 512)) (s s' : WalkState (List Nat)) : Prop where
  inv : WalkInv paths s'.memory pagingData
  frames : ∀ address, IsPagingFrame s'.memory pagingData address ↔
    IsPagingFrame s.memory pagingData address
  leaf : s'.memory.leafAt pagingData.basePhysicalAddress path = none
  others : ∀ path', path'.length = 4 → path' ≠ path →
    s'.memory.leafAt pagingData.basePhysicalAddress path' =
      s.memory.leafAt pagingData.basePhysicalAddress path'

variable (releaseMemory : Bool)

private theorem leafAt_of_not_present (rest : List (Fin 512))
    (htable : memory.tableAt pagingData.basePhysicalAddress q = some table)
    (hpresent : (memory table offset).present = false) :
    memory.leafAt pagingData.basePhysicalAddress (q ++ offset :: rest) = none := by
  have hsplit : memory.leafAt pagingData.basePhysicalAddress (q ++ offset :: rest) =
      memory.leafAt table (offset :: rest) := leafAt_append htable (by simp)
  rw [hsplit]
  exact leafAt_empty (slot_of_not_present hpresent) rest

private theorem walkStructures_unmap (hpaths : ∀ path ∈ paths, path.length ≤ 3)
    (hva : virtualAddress ≠ 0) {path : List (Fin 512)} (hpath : path.length = 4)
    (hneeded : ∀ path', path' ≠ [] → path'.length ≤ 3 → path' <+: path → path' ∈ paths)
    (rest : List (Fin 512)) (hrest : rest ≠ []) (hsplit : q ++ rest = path)
    {s : WalkState (List Nat)} (h : WalkInv paths s.memory pagingData)
    (htable : s.memory.tableAt pagingData.basePhysicalAddress q = some table) :
    ∃ s', walkStructures (vmUnmapPage releaseMemory) virtualAddress (q.length + 1) rest table s =
        some s' ∧
      PageUnmapped paths pagingData path s s' := by
  induction rest generalizing q table with
  | nil => exact absurd rfl hrest
  | cons offset rest ih =>
    have hlen : q.length + rest.length = 3 := by
      rw [← hsplit] at hpath
      simp at hpath
      omega
    have hassert := assertCallback_eq hva (q.length + 1) (by omega) (by omega)
    cases hpresent : (s.memory table offset).present with
    | false =>
      have hstep : vmUnmapPage releaseMemory s table offset virtualAddress (q.length + 1) =
          some (false,s) := by
        simp [vmUnmapPage,hassert,hpresent]
      refine ⟨s,walkStructures_stop rest hstep,h,fun _ => Iff.rfl,?_,fun _ _ _ => rfl⟩
      rw [← hsplit]
      exact leafAt_of_not_present rest htable hpresent
    | true =>
      cases rest with
      | nil =>
        have hq : q.length = 3 := by simpa using hlen
        obtain ⟨htables,hself,hothers⟩ :=
          writeEntry_lastLevel h.tree hq htable offset ptEntryZero
        rw [hsplit] at hself hothers
        have hstep : vmUnmapPage releaseMemory s table offset virtualAddress (q.length + 1) =
            some (true,⟨s.memory.writeEntry table offset ptEntryZero,if releaseMemory then
              s.context ++ [(s.memory table offset).physicalAddress] else s.context⟩) := by
          rw [hq] at hassert
          simp [vmUnmapPage,hassert,hpresent,hq,pagingTablesLastLevel]
        exact ⟨_,walkStructures_next [] hstep (Or.inl (by simp [hq,pagingTablesLastLevel])),
          writeEntry_walkInv h hpaths hq htable offset ptEntryZero,isPagingFrame_congr htables,
          hself,hothers⟩
      | cons offset' rest =>
        have hmem : q ++ [offset] ∈ paths := by
          apply hneeded
          · simp
          · simp at hlen ⊢
            omega
          · rw [← hsplit]
            exact ⟨offset' :: rest,by simp⟩
        have hsmall := h.small q offset table hmem htable hpresent
        have hlevel : q.length ≠ 3 := by
          simp at hlen
          omega
        have hstep : vmUnmapPage releaseMemory s table offset virtualAddress (q.length + 1) =
            some (true,s) := by
          simp [vmUnmapPage,hassert,hpresent,hlevel,pagingTablesLastLevel]
        obtain ⟨s',hwalk,hunmapped⟩ := ih (q := q ++ [offset]) (by simp) (by simpa using hsplit)
          (tableAt_concat htable hpresent hsmall)
        refine ⟨s',?_,hunmapped⟩
        rw [walkStructures_next _ hstep (Or.inr hsmall)]
        simpa using hwalk

theorem unmapPage_spec (hpaths : ∀ path ∈ paths, path.length ≤ 3) (hva : virtualAddress ≠ 0)
    (hneeded : ∀ path', path' ≠ [] → path'.length ≤ 3 → path' <+: tableOffsets virtualAddress →
      path' ∈ paths)
    {s : WalkState (List Nat)} (h : WalkInv paths s.memory pagingData) :
    ∃ s', walkStructures (vmUnmapPage releaseMemory) virtualAddress 1
        (tableOffsets virtualAddress) pagingData.basePhysicalAddress s = some s' ∧
      PageUnmapped paths pagingData (tableOffsets virtualAddress) s s' :=
  walkStructures_unmap releaseMemory (q := []) hpaths hva rfl hneeded _ (by simp) rfl h rfl

end Map

/-- The address a page is translated to; a large page above the third level is refused. -/
def leafAddress (virtualAddress : Nat) : Option (PtEntry × Nat) → Option Nat
  | none => some 0
  | some (entry,0) => some entry.physicalAddress
  | some (entry,1) =>
    some (ptrOffset (pteLargePageGetPhysicalAddress entry)
      (addressOffset virtualAddress page2MbSize))
  | some _ => none

private theorem walkStructures_retrieve {virtualAddress : Nat} (hva : virtualAddress ≠ 0)
    (clearAccessed clearDirty : Bool) (level : Nat) (offsets : List (Fin 512))
    (hlevel : 1 ≤ level) (hlen : level + offsets.length = 5) (hne : offsets ≠ [])
    (table : Nat) (s : WalkState PhysAccess) :
    (walkStructures (vmRetrievePhyAccess clearAccessed clearDirty) virtualAddress level offsets
      table s).map (fun s' => s'.context.physicalAddress) =
      leafAddress virtualAddress (s.memory.leafAt table offsets) := by
  induction offsets generalizing level table with
  | nil => exact absurd rfl hne
  | cons offset rest ih =>
    simp only [List.length_cons] at hlen
    have hassert := assertCallback_eq hva level hlevel (by omega)
    cases hpresent : (s.memory table offset).present with
    | false =>
      have hstep : vmRetrievePhyAccess clearAccessed clearDirty s table offset virtualAddress
          level = some (false,{ s with context := { s.context with physicalAddress := 0 } }) := by
        simp [vmRetrievePhyAccess,hassert,hpresent]
      rw [walkStructures_stop rest hstep,PhysicalMemory.leafAt,
        leafAt_empty (slot_of_not_present hpresent)]
      rfl
    | true =>
      cases rest with
      | nil =>
        obtain rfl : level = 4 := by simpa using hlen
        have hslot := slot_of_present hpresent
        have hstep : vmRetrievePhyAccess clearAccessed clearDirty s table offset virtualAddress
            4 = some (false,retrieveAccess clearAccessed clearDirty s table offset
              (s.memory table offset).physicalAddress) := by
          simp [vmRetrievePhyAccess,hassert,hpresent,pagingTablesLastLevel]
        rw [walkStructures_stop [] hstep,PhysicalMemory.leafAt,leafAt_last hslot]
        rfl
      | cons offset' rest =>
        simp only [List.length_cons] at hlen
        cases hlarge : (s.memory table offset).pageSize with
        | false =>
          have hstep : vmRetrievePhyAccess clearAccessed clearDirty s table offset virtualAddress
              level = some (true,s) := by
            have hnotlast : level < 3 ∨ level = 3 := by omega
            rcases hnotlast with habove | rfl
            · simp [vmRetrievePhyAccess,hassert,hpresent,habove,pagingTablesLastLevel]
            · simp [vmRetrievePhyAccess,hassert,hpresent,hlarge,pagingTablesLastLevel]
          rw [walkStructures_next _ hstep (Or.inr hlarge),PhysicalMemory.leafAt,
            leafAt_table (target_of_present hpresent hlarge) (by simp)]
          exact ih (level + 1) (by omega) (by simp; omega) (by simp) _
        | true =>
          have hslot : (s.memory table offset).slot = .leaf := by
            simp [PtEntry.slot,hpresent,hlarge]
          have hleaf : s.memory.leafAt table (offset :: offset' :: rest) =
              some (s.memory table offset,rest.length + 1) := by
            simp [PhysicalMemory.leafAt,RadixTree.leafAt,hslot]
          rw [hleaf]
          by_cases hthird : level = 3
          · subst level
            have hrest : rest.length = 0 := by omega
            have hstep : vmRetrievePhyAccess clearAccessed clearDirty s table offset
                virtualAddress 3 = some (false,retrieveAccess clearAccessed clearDirty s table
                  offset (ptrOffset (pteLargePageGetPhysicalAddress (s.memory table offset))
                    (addressOffset virtualAddress page2MbSize))) := by
              simp [vmRetrievePhyAccess,hassert,hpresent,hlarge,pagingTablesLastLevel]
            rw [walkStructures_stop _ hstep,hrest]
            rfl
          · obtain ⟨n,hn⟩ : ∃ n, rest.length = n + 1 := ⟨rest.length - 1,by omega⟩
            have habove : level < 3 := by omega
            have hstep : vmRetrievePhyAccess clearAccessed clearDirty s table offset
                virtualAddress level = some (true,s) := by
              simp [vmRetrievePhyAccess,hassert,hpresent,habove,pagingTablesLastLevel]
            have hnotlast : level ≠ 4 := by omega
            simp [walkStructures,hstep,hlarge,hn,leafAddress,assert,pagingTablesLastLevel,hnotlast]

/-- Whether the access bits are asked for makes no difference to the address. -/
theorem vmmGetPhysicalAddressEx_eq (memory : PhysicalMemory) (cr3 : Pml4) {virtualAddress : Nat}
    (hva : virtualAddress ≠ 0) (haligned : isAddressAligned virtualAddress pageSize = true)
    (hword : virtualAddress < qwordModulus) (accessed dirty : Bool) :
    (vmmGetPhysicalAddressEx memory cr3 virtualAddress accessed dirty).map
        (fun s => s.context.physicalAddress) =
      leafAddress virtualAddress
        (memory.leafAt (cr3.physicalAddress * pageSize) (tableOffsets virtualAddress)) := by
  have haddress : ptrOffset virtualAddress 0 = virtualAddress := Nat.mod_eq_of_lt hword
  have hwalk := walkStructures_retrieve hva accessed dirty 1 (tableOffsets virtualAddress) le_rfl
    rfl (by simp [tableOffsets]) (cr3.physicalAddress * pageSize) ⟨memory,⟨0,false,false⟩⟩
  have hassert : assert (virtualAddress != 0) = some () := by simp [hva]
  have hcount : (pageSize + (pageSize - 1)) / pageSize = 1 := rfl
  rw [← hwalk]
  simp [vmmGetPhysicalAddressEx,vmWalkPagingTables,walkPages,hassert,haligned,haddress,hcount,
    pagingTablesFirstLevel]

theorem vmmGetPhysicalAddress_eq (memory : PhysicalMemory) (cr3 : Pml4) {virtualAddress : Nat}
    (hva : virtualAddress ≠ 0) (haligned : isAddressAligned virtualAddress pageSize = true)
    (hword : virtualAddress < qwordModulus) :
    vmmGetPhysicalAddress memory cr3 virtualAddress =
      leafAddress virtualAddress
        (memory.leafAt (cr3.physicalAddress * pageSize) (tableOffsets virtualAddress)) :=
  vmmGetPhysicalAddressEx_eq memory cr3 hva haligned hword false false

end Hal9000
