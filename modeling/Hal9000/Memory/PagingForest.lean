import Hal9000.Memory.PagingCorrect

/-!
# Address spaces that share paging structures

Each address space has a root and a pool of its own, and its tables may be linked into those
of others, as the tables of the kernel half are. Every table is reached by one path, from
whichever root, so that an entry of the last level stands for one virtual page.
-/

namespace Hal9000

open RadixTree

/-- The tables walks start at. -/
def rootsOf {Space : Type} (pagingData : Space → PagingData) (space : Space) : Nat :=
  (pagingData space).basePhysicalAddress

/-- Every paging structure has one path, and no root reaches what the pools have not handed
out. -/
structure PagingForest {Space : Type} (memory : PhysicalMemory)
    (pagingData : Space → PagingData) : Prop where
  wellFormed : ∀ space, (pagingData space).WellFormed
  onePath : OnePath PtEntry.slot memory (rootsOf pagingData) 3
  spare_unreached : ∀ space k, (pagingData space).currentIndex ≤ k →
    k < (pagingData space).numberOfFrames →
    ∀ other, Unreached PtEntry.slot memory (rootsOf pagingData other) 3 ((pagingData space).frame k)
  pools_disjoint : ∀ space other k k', k < (pagingData space).numberOfFrames →
    k' < (pagingData other).numberOfFrames →
    (pagingData space).frame k = (pagingData other).frame k' → space = other

/-- An entry of the last level: the path of its table, the table and the offset in it. -/
structure PageEntry where
  path : List (Fin 512)
  table : Nat
  offset : Fin 512
  deriving DecidableEq

/-- The page table is reached, and the entry in it is this one and present. -/
structure PageEntry.Holds {Space : Type} (memory : PhysicalMemory) (roots : Space → Nat)
    (page : PageEntry) (entry : PtEntry) : Prop where
  length : page.path.length = 3
  reached : ∃ space, memory.tableAt (roots space) page.path = some page.table
  entry_eq : memory page.table page.offset = entry
  present : entry.present = true

/-- The entry at which the walk of an address from the root ends. -/
structure PageEntry.Of (memory : PhysicalMemory) (root virtualAddress : Nat) (page : PageEntry) :
    Prop where
  path : page.path ++ [page.offset] = tableOffsets virtualAddress
  table : memory.tableAt root page.path = some page.table

section Entries

variable {Space : Type} {memory memory' : PhysicalMemory} {roots : Space → Nat} {root : Nat}
  {virtualAddress : Nat} {page page' : PageEntry} {entry : PtEntry}

theorem PageEntry.Of.length (h : page.Of memory root virtualAddress) : page.path.length = 3 := by
  have := congrArg List.length h.path
  simpa using this

theorem PageEntry.Of.unique (h : page.Of memory root virtualAddress)
    (h' : page'.Of memory root virtualAddress) : page = page' := by
  obtain ⟨hpath,hoffset⟩ := List.append_inj' (h.path.trans h'.path.symm) rfl
  have htable := h.table
  rw [hpath,h'.table] at htable
  cases page
  cases page'
  simp_all

theorem PageEntry.Of.leafAt (h : page.Of memory root virtualAddress) :
    memory.leafAt root (tableOffsets virtualAddress) =
      if (memory page.table page.offset).present then some (memory page.table page.offset,0)
      else none := by
  rw [← h.path]
  exact leafAt_lastLevel h.table page.offset

theorem PageEntry.Of.tableOffsets_eq {virtualAddress' root' : Nat}
    (h : page.Of memory root virtualAddress) (h' : page.Of memory' root' virtualAddress') :
    tableOffsets virtualAddress = tableOffsets virtualAddress' :=
  h.path.symm.trans h'.path

end Entries

section Forest

variable {Space : Type} [DecidableEq Space] {memory memory' : PhysicalMemory}
  {pagingData : Space → PagingData} {context : PagingData} {space : Space}

theorem rootsOf_update (h : (pagingData space).SamePool context) :
    rootsOf (Function.update pagingData space context) = rootsOf pagingData := by
  funext other
  by_cases hother : other = space
  · subst other
    rw [rootsOf,Function.update_self,h]
    rfl
  · rw [rootsOf,Function.update_of_ne hother]
    rfl

/-- Paging structures of one address space are added, and no entry of the last level changes. -/
structure ForestGrows (pagingData : Space → PagingData) (memory : PhysicalMemory) (space : Space)
    (memory' : PhysicalMemory) (context : PagingData) : Prop where
  forest : PagingForest memory' (Function.update pagingData space context)
  pool : (pagingData space).SamePool context
  tables : ∀ other path table, path.length ≤ 3 →
    memory.tableAt (rootsOf pagingData other) path = some table →
    memory'.tableAt (rootsOf pagingData other) path = some table
  leaves : ∀ other path, path.length = 4 →
    memory'.leafAt (rootsOf pagingData other) path = memory.leafAt (rootsOf pagingData other) path
  entries : ∀ page entry, PageEntry.Holds memory' (rootsOf pagingData) page entry ↔
    PageEntry.Holds memory (rootsOf pagingData) page entry

theorem ForestGrows.refl (h : PagingForest memory pagingData) (space : Space) :
    ForestGrows pagingData memory space memory (pagingData space) where
  forest := by rwa [Function.update_eq_self]
  pool := rfl
  tables _ _ _ _ htable := htable
  leaves _ _ _ := rfl
  entries _ _ := Iff.rfl

theorem ForestGrows.trans {memory₁ : PhysicalMemory} {context₁ : PagingData}
    (h : ForestGrows pagingData memory space memory₁ context₁)
    (h' : ForestGrows (Function.update pagingData space context₁) memory₁ space memory' context) :
    ForestGrows pagingData memory space memory' context := by
  obtain ⟨hforest,hpool,htables,hleaves,hentries⟩ := h'
  rw [Function.update_idem] at hforest
  rw [Function.update_self] at hpool
  rw [rootsOf_update h.pool] at htables hleaves hentries
  refine ⟨hforest,?_,?_,?_,?_⟩
  · rw [PagingData.SamePool,hpool,h.pool]
  · intro other path table hpath htable
    exact htables other path table hpath (h.tables other path table hpath htable)
  · intro other path hpath
    rw [hleaves other path hpath,h.leaves other path hpath]
  · intro page entry
    rw [hentries page entry,h.entries page entry]

private theorem pools_disjoint_update (h : PagingForest memory pagingData)
    (hpool : (pagingData space).SamePool context) {owner other : Space} {k k' : Nat}
    (hk : k < (Function.update pagingData space context owner).numberOfFrames)
    (hk' : k' < (Function.update pagingData space context other).numberOfFrames)
    (heq : (Function.update pagingData space context owner).frame k =
      (Function.update pagingData space context other).frame k') : owner = other := by
  have hsame : ∀ other k, (Function.update pagingData space context other).frame k =
      (pagingData other).frame k ∧
      (Function.update pagingData space context other).numberOfFrames =
        (pagingData other).numberOfFrames := by
    intro other k
    by_cases hother : other = space
    · subst other
      rw [Function.update_self,hpool]
      exact ⟨rfl,rfl⟩
    · rw [Function.update_of_ne hother]
      exact ⟨rfl,rfl⟩
  rw [(hsame owner k).2] at hk
  rw [(hsame other k').2] at hk'
  rw [(hsame owner k).1,(hsame other k').1] at heq
  exact h.pools_disjoint owner other k k' hk hk' heq

section OneLink

variable {q : List (Fin 512)} {table : Nat} {offset : Fin 512} (h : PagingForest memory pagingData)
  (hroom : (pagingData space).currentIndex < (pagingData space).numberOfFrames) (hq : q.length < 3)
  (htable : memory.tableAt (rootsOf pagingData space) q = some table)

include h hroom

private theorem wellFormed_next (other : Space) :
    (Function.update pagingData space (pagingData space).next other).WellFormed := by
  by_cases hother : other = space
  · subst other
    rw [Function.update_self]
    obtain ⟨haligned,hbounded,hframes,_,_⟩ := h.wellFormed space
    exact ⟨haligned,hbounded,hframes,Nat.succ_pos _,hroom⟩
  · rw [Function.update_of_ne hother]
    exact h.wellFormed other

include hq htable

omit [DecidableEq Space] in
private theorem linkNext_follow_cases (other : Space) {path : List (Fin 512)} {m : Nat}
    (hpath : path.length ≤ 3)
    (hm : (linkNext memory (pagingData space) table offset).tableAt (rootsOf pagingData other)
      path = some m) :
    path = q ++ [offset] ∧ m = (pagingData space).frame (pagingData space).currentIndex ∨
      memory.tableAt (rootsOf pagingData other) path = some m :=
  link_follow_cases_root h.onePath hq htable (h.spare_unreached space _ le_rfl hroom) other
    (target_pteMap _ _) (fun _ => slot_zero) hpath hm

private theorem linkNext_spare_unreached (owner : Space) (k : Nat)
    (hle : (Function.update pagingData space (pagingData space).next owner).currentIndex ≤ k)
    (hlt : k < (Function.update pagingData space (pagingData space).next owner).numberOfFrames)
    (other : Space) : Unreached PtEntry.slot (linkNext memory (pagingData space) table offset)
      (rootsOf pagingData other) 3
      ((Function.update pagingData space (pagingData space).next owner).frame k) := by
  intro path hpath hm
  have hcases := linkNext_follow_cases h hroom hq htable other hpath hm
  by_cases howner : owner = space
  · subst owner
    rw [Function.update_self] at hle hlt hcases
    change (pagingData space).currentIndex + 1 ≤ k at hle
    change k < (pagingData space).numberOfFrames at hlt
    rcases hcases with ⟨_,heq⟩ | hold
    · have hk := (pagingData space).frame_injective heq
      omega
    · exact h.spare_unreached space k (by omega) hlt other path hpath hold
  · rw [Function.update_of_ne howner] at hle hlt hcases
    rcases hcases with ⟨_,heq⟩ | hold
    · exact howner (h.pools_disjoint owner space k _ hlt hroom heq)
    · exact h.spare_unreached owner k hle hlt other path hpath hold

omit [DecidableEq Space] in
private theorem linkNext_page_entry {other : Space} {page : PageEntry}
    (hlength : page.path.length = 3)
    (hreached : memory.tableAt (rootsOf pagingData other) page.path = some page.table) :
    linkNext memory (pagingData space) table offset page.table page.offset =
      memory page.table page.offset := by
  have hfresh := h.spare_unreached space _ le_rfl hroom
  apply linkNext_entry
  · intro heq
    rw [heq] at hreached
    exact hfresh other page.path (by omega) hreached
  · rintro ⟨heq,_⟩
    rw [heq] at hreached
    have hpath := h.onePath other space page.path q table (by omega) (by omega) hreached htable
    rw [hpath] at hlength
    omega

omit [DecidableEq Space] in
private theorem linkNext_fresh_entry (i : Fin 512) :
    linkNext memory (pagingData space) table offset
      ((pagingData space).frame (pagingData space).currentIndex) i = ptEntryZero := by
  have hne : (pagingData space).frame (pagingData space).currentIndex ≠ table := by
    intro heq
    rw [← heq] at htable
    exact h.spare_unreached space _ le_rfl hroom space q (by omega) htable
  unfold linkNext link
  rw [write_of_ne _ (Or.inl hne),Function.update_self]

variable (hpresent : (memory table offset).present = false)

include hpresent

omit [DecidableEq Space] in
private theorem linkNext_follow_mono (other : Space) {path : List (Fin 512)} {m : Nat}
    (hpath : path.length ≤ 3)
    (hm : memory.tableAt (rootsOf pagingData other) path = some m) :
    (linkNext memory (pagingData space) table offset).tableAt (rootsOf pagingData other) path =
      some m :=
  link_follow_mono_root h.onePath hq htable (h.spare_unreached space _ le_rfl hroom) other
    (slot_of_not_present hpresent) hpath hm

omit [DecidableEq Space] in
private theorem linkNext_holds_iff (page : PageEntry) (entry : PtEntry) :
    page.Holds (linkNext memory (pagingData space) table offset) (rootsOf pagingData) entry ↔
      page.Holds memory (rootsOf pagingData) entry := by
  have hsame (other : Space) (hlength : page.path.length = 3)
      (hold : memory.tableAt (rootsOf pagingData other) page.path = some page.table) :
      linkNext memory (pagingData space) table offset page.table page.offset =
        memory page.table page.offset :=
    linkNext_page_entry h hroom hq htable hlength hold
  constructor
  · rintro ⟨hlength,⟨other,hreached⟩,hentry,hp⟩
    rcases linkNext_follow_cases h hroom hq htable other (by omega) hreached with ⟨_,hnew⟩ | hold
    · rw [hnew,linkNext_fresh_entry h hroom hq htable] at hentry
      rw [← hentry] at hp
      cases hp
    · exact ⟨hlength,⟨other,hold⟩,(hsame other hlength hold).symm.trans hentry,hp⟩
  · rintro ⟨hlength,⟨other,hold⟩,hentry,hp⟩
    have hreached := linkNext_follow_mono h hroom hq htable hpresent other (by omega) hold
    exact ⟨hlength,⟨other,hreached⟩,(hsame other hlength hold).trans hentry,hp⟩

theorem PagingForest.linkNext :
    ForestGrows pagingData memory space (linkNext memory (pagingData space) table offset)
      (pagingData space).next := by
  have hpool : (pagingData space).SamePool (pagingData space).next := rfl
  have hfresh := h.spare_unreached space _ le_rfl hroom
  have htarget := target_pteMap ((pagingData space).frame (pagingData space).currentIndex)
    (pagingStructureFlags (pagingData space))
  refine ⟨⟨wellFormed_next h hroom,?_,?_,?_⟩,hpool,?_,?_,?_⟩
  · rw [rootsOf_update hpool]
    exact link_onePath h.onePath hq htable hfresh htarget (fun _ => slot_zero)
  · rw [rootsOf_update hpool]
    exact linkNext_spare_unreached h hroom hq htable
  · exact fun owner other k k' => pools_disjoint_update h hpool
  · exact fun other path m => linkNext_follow_mono h hroom hq htable hpresent other
  · intro other path hpath
    apply link_leafAt_root h.onePath hq htable hfresh other (slot_of_not_present hpresent) htarget
      (fun _ => slot_zero) (by omega)
    rintro rfl
    simp at hpath
    omega
  · exact linkNext_holds_iff h hroom hq htable hpresent

end OneLink

omit [DecidableEq Space] in
theorem PagingForest.writeEntry (h : PagingForest memory pagingData) {q : List (Fin 512)}
    {table : Nat} (hq : q.length = 3)
    (htable : memory.tableAt (rootsOf pagingData space) q = some table) (offset : Fin 512)
    (entry : PtEntry) :
    PagingForest (memory.writeEntry table offset entry) pagingData ∧
      (∀ other path, path.length ≤ 3 →
        (memory.writeEntry table offset entry).tableAt (rootsOf pagingData other) path =
          memory.tableAt (rootsOf pagingData other) path) ∧
      (∀ other path, path.length = 4 → path ≠ q ++ [offset] →
        (memory.writeEntry table offset entry).leafAt (rootsOf pagingData other) path =
          memory.leafAt (rootsOf pagingData other) path) ∧
      ∀ page entry', PageEntry.Holds (memory.writeEntry table offset entry) (rootsOf pagingData)
        page entry' ↔ page = ⟨q,table,offset⟩ ∧ entry' = entry ∧ entry.present = true ∨
          page ≠ ⟨q,table,offset⟩ ∧ PageEntry.Holds memory (rootsOf pagingData) page entry' := by
  have htables : ∀ other path, path.length ≤ 3 →
      (memory.writeEntry table offset entry).tableAt (rootsOf pagingData other) path =
        memory.tableAt (rootsOf pagingData other) path :=
    fun other path hpath => writeLast_follow_root h.onePath hq htable other hpath
  refine ⟨⟨h.wellFormed,h.onePath.congr htables,?_,h.pools_disjoint⟩,htables,?_,?_⟩
  · intro owner k hle hlt other path hpath
    rw [← PhysicalMemory.tableAt,htables other path hpath]
    exact h.spare_unreached owner k hle hlt other path hpath
  · intro other path hpath hne
    exact writeLast_leafAt_root h.onePath hq htable other (by omega) hne
  · intro page entry'
    by_cases hpage : page = ⟨q,table,offset⟩
    · subst page
      have hentry : memory.writeEntry table offset entry table offset = entry := write_same ..
      constructor
      · rintro ⟨_,_,hentry',hpresent⟩
        change memory.writeEntry table offset entry table offset = entry' at hentry'
        rw [hentry] at hentry'
        exact Or.inl ⟨rfl,hentry'.symm,hentry' ▸ hpresent⟩
      · rintro (⟨_,rfl,hpresent⟩ | ⟨hne,_⟩)
        · exact ⟨hq,⟨space,(htables space q (by omega)).trans htable⟩,hentry,hpresent⟩
        · exact absurd rfl hne
    · have hkeeps : (∃ other, memory.tableAt (rootsOf pagingData other) page.path =
          some page.table) → page.path.length = 3 →
          memory.writeEntry table offset entry page.table page.offset =
            memory page.table page.offset := by
        rintro ⟨other,hreached⟩ hlength
        apply write_of_ne
        by_contra hsame
        simp only [not_or,not_not] at hsame
        rw [hsame.1] at hreached
        have hpath := h.onePath other space page.path q table (by omega) (by omega) hreached htable
        apply hpage
        cases page
        simp_all
      constructor
      · rintro ⟨hlength,⟨other,hreached⟩,hentry,hpresent⟩
        rw [htables other page.path (by omega)] at hreached
        exact Or.inr ⟨hpage,hlength,⟨other,hreached⟩,
          (hkeeps ⟨other,hreached⟩ hlength).symm.trans hentry,hpresent⟩
      · rintro (⟨hself,_⟩ | ⟨_,hlength,⟨other,hreached⟩,hentry,hpresent⟩)
        · exact absurd hself hpage
        · exact ⟨hlength,⟨other,(htables other page.path (by omega)).trans hreached⟩,
            (hkeeps ⟨other,hreached⟩ hlength).trans hentry,hpresent⟩

/-- An address space maps a page: its entry of the last level is set, and no other. -/
structure ForestMapped (pagingData : Space → PagingData) (memory : PhysicalMemory) (space : Space)
    (virtualAddress : Nat) (entry : PtEntry) (memory' : PhysicalMemory) (context : PagingData) :
    Prop where
  forest : PagingForest memory' (Function.update pagingData space context)
  pool : (pagingData space).SamePool context
  tables : ∀ other path table, path.length ≤ 3 →
    memory.tableAt (rootsOf pagingData other) path = some table →
    memory'.tableAt (rootsOf pagingData other) path = some table
  others : ∀ other path, path.length = 4 → path ≠ tableOffsets virtualAddress →
    memory'.leafAt (rootsOf pagingData other) path = memory.leafAt (rootsOf pagingData other) path
  entries : ∃ page, PageEntry.Of memory' (rootsOf pagingData space) virtualAddress page ∧
    (memory.leafAt (rootsOf pagingData space) (tableOffsets virtualAddress) = none →
      ∀ entry', ¬ PageEntry.Holds memory (rootsOf pagingData) page entry') ∧
    ∀ page' entry', PageEntry.Holds memory' (rootsOf pagingData) page' entry' ↔
      page' = page ∧ entry' = entry ∨
        page' ≠ page ∧ PageEntry.Holds memory (rootsOf pagingData) page' entry'

/-- No large page is met on the way. -/
def SmallLeaf (memory : PhysicalMemory) (root : Nat) (path : List (Fin 512)) : Prop :=
  ∀ entry levels, memory.leafAt root path = some (entry,levels) → levels = 0

/-- At the page mapped an address space sees what it saw, or shares the entry. -/
def LeafShared (pagingData : Space → PagingData) (memory : PhysicalMemory) (space : Space)
    (virtualAddress : Nat) (memory' : PhysicalMemory) : Prop :=
  ∀ other, memory'.leafAt (rootsOf pagingData other) (tableOffsets virtualAddress) =
      memory.leafAt (rootsOf pagingData other) (tableOffsets virtualAddress) ∨
    SmallLeaf memory (rootsOf pagingData other) (tableOffsets virtualAddress) ∧
      ∃ page, PageEntry.Of memory' (rootsOf pagingData space) virtualAddress page ∧
        PageEntry.Of memory' (rootsOf pagingData other) virtualAddress page

theorem ForestGrows.leafShared {memory₁ : PhysicalMemory} {context₁ : PagingData}
    {virtualAddress : Nat} (h : ForestGrows pagingData memory space memory₁ context₁)
    (h' : LeafShared (Function.update pagingData space context₁) memory₁ space virtualAddress
      memory') : LeafShared pagingData memory space virtualAddress memory' := by
  intro other
  have hother := h' other
  simp only [rootsOf_update h.pool,SmallLeaf] at hother
  rw [h.leaves other _ rfl] at hother
  exact hother

theorem ForestGrows.mapped {memory₁ : PhysicalMemory} {context₁ : PagingData} {virtualAddress : Nat}
    {entry : PtEntry} (h : ForestGrows pagingData memory space memory₁ context₁)
    (h' : ForestMapped (Function.update pagingData space context₁) memory₁ space virtualAddress
      entry memory' context) :
    ForestMapped pagingData memory space virtualAddress entry memory' context := by
  obtain ⟨hforest,hpool,htables,hothers,page,hpage,hfresh,hentries⟩ := h'
  rw [Function.update_idem] at hforest
  rw [Function.update_self] at hpool
  rw [rootsOf_update h.pool] at htables hothers hpage hfresh hentries
  refine ⟨hforest,?_,?_,?_,page,hpage,?_,?_⟩
  · rw [PagingData.SamePool,hpool,h.pool]
  · intro other path table hpath htable
    exact htables other path table hpath (h.tables other path table hpath htable)
  · intro other path hpath hne
    rw [hothers other path hpath hne,h.leaves other path hpath]
  · intro hnone entry'
    rw [← h.entries page entry']
    rw [← h.leaves space _ rfl] at hnone
    exact hfresh hnone entry'
  · intro page' entry'
    rw [hentries page' entry',h.entries page' entry']

variable {virtualAddress : Nat}

private theorem PagingForest.setPage (h : PagingForest memory pagingData) {q : List (Fin 512)}
    {table : Nat} {offset : Fin 512} (hq : q.length = 3)
    (hsplit : q ++ [offset] = tableOffsets virtualAddress)
    (htable : memory.tableAt (rootsOf pagingData space) q = some table) {entry : PtEntry}
    (hentry : entry.present = true) :
    ForestMapped pagingData memory space virtualAddress entry
        (memory.writeEntry table offset entry) (pagingData space) ∧
      LeafShared pagingData memory space virtualAddress
        (memory.writeEntry table offset entry) := by
  obtain ⟨hforest,htables,hothers,hentries⟩ := h.writeEntry hq htable offset entry
  rw [hsplit] at hothers
  have hof : PageEntry.Of memory (rootsOf pagingData space) virtualAddress ⟨q,table,offset⟩ :=
    ⟨hsplit,htable⟩
  have hof' : PageEntry.Of (memory.writeEntry table offset entry) (rootsOf pagingData space)
      virtualAddress ⟨q,table,offset⟩ :=
    ⟨hsplit,(htables space q (by omega)).trans htable⟩
  refine ⟨⟨?_,rfl,?_,hothers,⟨q,table,offset⟩,hof',?_,?_⟩,?_⟩
  · rwa [Function.update_eq_self]
  · intro other path m hpath hm
    exact (htables other path hpath).trans hm
  · intro hnone entry' hold
    rw [hof.leafAt,hold.entry_eq,if_pos hold.present] at hnone
    cases hnone
  · intro page' entry'
    rw [hentries page' entry',and_iff_left hentry]
  · intro other
    rcases writeLast_leafAt_or h.onePath hq htable other (le_of_eq (tableOffsets_length _))
      with hreached | hsame
    · refine Or.inr ⟨?_,⟨q,table,offset⟩,hof',hsplit,(htables other q (by omega)).trans hreached⟩
      intro entry' levels hleaf
      rw [← hsplit,leafAt_lastLevel hreached offset] at hleaf
      split at hleaf
      · exact (Prod.mk.inj (Option.some.inj hleaf)).2.symm
      · cases hleaf
    · exact Or.inl hsame

private theorem PagingForest.setTable (h : PagingForest memory pagingData) {q : List (Fin 512)}
    {table : Nat} {offset : Fin 512} (hq : q.length < 3)
    (htable : memory.tableAt (rootsOf pagingData space) q = some table)
    (hpresent : (memory table offset).present = false) {s : WalkState PagingData}
    (hsetup : vmSetupPagingStructure memory (pagingData space) table offset = some s) :
    ForestGrows pagingData memory space s.memory s.context ∧
      (s.memory table offset).present = true := by
  have hroom := room_of_setup hsetup
  have hne : table ≠ (pagingData space).frame (pagingData space).currentIndex := by
    rintro rfl
    exact h.spare_unreached space _ le_rfl hroom space q (by omega) htable
  rw [vmSetupPagingStructure_of_ne (h.wellFormed space) hroom hne] at hsetup
  obtain rfl := Option.some.inj hsetup
  refine ⟨h.linkNext hroom hq htable hpresent,?_⟩
  simp [Hal9000.linkNext,link,write_same,pteMap]

variable (vmmData : VmmData) (request : MapRequest)

private theorem walkStructures_forestMap (rest : List (Fin 512)) (hrest : rest ≠ [])
    {q : List (Fin 512)} {table : Nat} (hsplit : q ++ rest = tableOffsets virtualAddress)
    {s s' : WalkState PagingData} (hcontext : s.context = pagingData space)
    (h : PagingForest s.memory pagingData)
    (hset : request.invalidate = true ∨
      s.memory.leafAt (rootsOf pagingData space) (tableOffsets virtualAddress) = none)
    (htable : s.memory.tableAt (rootsOf pagingData space) q = some table)
    (hwalk : walkStructures (vmMapPage vmmData request) virtualAddress (q.length + 1) rest table s =
      some s') :
    ForestMapped pagingData s.memory space virtualAddress
        (mapEntry vmmData request (pagingData space).kernelSpace virtualAddress) s'.memory
        s'.context ∧
      LeafShared pagingData s.memory space virtualAddress s'.memory := by
  induction rest generalizing q table s pagingData with
  | nil => exact absurd rfl hrest
  | cons offset rest ih =>
    have hlen := length_of_split hsplit
    simp only [walkStructures,Option.bind_eq_bind,Option.bind_eq_some_iff] at hwalk
    obtain ⟨⟨continueWalk,s₁⟩,hstep,hwalk⟩ := hwalk
    obtain ⟨rfl,hcases⟩ := vmMapPage_cases hstep
    obtain ⟨_,hsmall,hwalk⟩ := Option.bind_eq_some_iff.mp hwalk
    cases rest with
    | nil =>
      have hq : q.length = 3 := by simpa using hlen
      have hlast : q.length + 1 = 4 := by omega
      obtain rfl : s₁ = s' := by simpa [walkStructures] using hwalk
      rcases hcases with ⟨hpresent,hkeep,rfl⟩ | ⟨_,_,rfl⟩ | ⟨hlevel,_⟩
      · have hnone := hset.resolve_left (by simp [hkeep hlast])
        rw [← hsplit,leafAt_lastLevel htable offset,hpresent] at hnone
        cases hnone
      · rw [hcontext]
        exact h.setPage hq hsplit htable rfl
      · omega
    | cons offset' rest =>
      have hlevel : q.length ≠ 3 := by
        simp at hlen
        omega
      have hsmall : (s₁.memory table offset).pageSize = false := by
        simpa [pagingTablesLastLevel,hlevel] using hsmall
      have hgo : ForestGrows pagingData s.memory space s₁.memory s₁.context ∧
          (s₁.memory table offset).present = true := by
        rcases hcases with ⟨hpresent,_,rfl⟩ | ⟨hlast,_⟩ | ⟨_,hpresent,hsetup⟩
        · rw [hcontext]
          exact ⟨ForestGrows.refl h space,hpresent⟩
        · omega
        · rw [hcontext] at hsetup
          have hq : q.length < 3 := by
            simp at hlen
            omega
          exact h.setTable hq htable hpresent hsetup
      obtain ⟨hgrows,hpresent⟩ := hgo
      have htable₁ := tableAt_concat (hgrows.tables space q table (by omega) htable) hpresent hsmall
      have hkernel : (Function.update pagingData space s₁.context space).kernelSpace =
          (pagingData space).kernelSpace := by
        rw [Function.update_self,hgrows.pool]
      rw [← hkernel]
      have hrest : ForestMapped (Function.update pagingData space s₁.context) s₁.memory space
          virtualAddress (mapEntry vmmData request
            (Function.update pagingData space s₁.context space).kernelSpace virtualAddress)
          s'.memory s'.context ∧
          LeafShared (Function.update pagingData space s₁.context) s₁.memory space virtualAddress
            s'.memory := by
        apply ih (q := q ++ [offset]) (by simp) (by simpa using hsplit)
        · rw [Function.update_self]
        · exact hgrows.forest
        · rwa [rootsOf_update hgrows.pool,hgrows.leaves space _ rfl]
        · rwa [rootsOf_update hgrows.pool]
        · simpa using hwalk
      exact ⟨hgrows.mapped hrest.1,hgrows.leafShared hrest.2⟩

/-- The address of a page of a walk, as the 64-bit sum. -/
def walkAddress (baseAddress k : Nat) : Nat := ptrOffset baseAddress (k * pageSize)

theorem walkAddress_injective {baseAddress j k : Nat}
    (haligned : isAddressAligned baseAddress pageSize = true) (hj : j < 2 ^ 36) (hk : k < 2 ^ 36)
    (h : tableOffsets (walkAddress baseAddress j) = tableOffsets (walkAddress baseAddress k)) :
    j = k := by
  have hpages := pageNumber_of_tableOffsets h
  simp only [isAddressAligned,beq_iff_eq,walkAddress,ptrOffset,pageSize,qwordModulus]
    at hpages haligned
  omega

/-- An address space maps the pages of a walk from one number to another: their entries of the
last level are set, and no others. -/
structure ForestRangeMapped (pagingData : Space → PagingData) (memory : PhysicalMemory)
    (space : Space) (entryAt : Nat → PtEntry) (baseAddress first last : Nat)
    (memory' : PhysicalMemory) (context : PagingData) : Prop where
  forest : PagingForest memory' (Function.update pagingData space context)
  pool : (pagingData space).SamePool context
  tables : ∀ other path table, path.length ≤ 3 →
    memory.tableAt (rootsOf pagingData other) path = some table →
    memory'.tableAt (rootsOf pagingData other) path = some table
  mapped : ∀ k, first ≤ k → k < last → ∃ page,
    PageEntry.Of memory' (rootsOf pagingData space) (walkAddress baseAddress k) page
  fresh : (∀ k, first ≤ k → k < last → memory.leafAt (rootsOf pagingData space)
      (tableOffsets (walkAddress baseAddress k)) = none) →
    ∀ k page entry, first ≤ k → k < last →
      PageEntry.Of memory' (rootsOf pagingData space) (walkAddress baseAddress k) page →
      ¬ PageEntry.Holds memory (rootsOf pagingData) page entry
  entries : ∀ page entry, PageEntry.Holds memory' (rootsOf pagingData) page entry ↔
    (∃ k, first ≤ k ∧ k < last ∧
        PageEntry.Of memory' (rootsOf pagingData space) (walkAddress baseAddress k) page ∧
        entry = entryAt (walkAddress baseAddress k)) ∨
      (∀ k, first ≤ k → k < last →
        ¬ PageEntry.Of memory' (rootsOf pagingData space) (walkAddress baseAddress k) page) ∧
        PageEntry.Holds memory (rootsOf pagingData) page entry

/-- Leaves change only at the pages of the walk, where the entry is shared. -/
def LeavesShared (pagingData : Space → PagingData) (memory : PhysicalMemory) (space : Space)
    (baseAddress first last : Nat) (memory' : PhysicalMemory) : Prop :=
  ∀ other path, path.length = 4 →
    memory'.leafAt (rootsOf pagingData other) path = memory.leafAt (rootsOf pagingData other) path ∨
    SmallLeaf memory (rootsOf pagingData other) path ∧ ∃ k page, first ≤ k ∧ k < last ∧
      path = tableOffsets (walkAddress baseAddress k) ∧
      PageEntry.Of memory' (rootsOf pagingData space) (walkAddress baseAddress k) page ∧
      PageEntry.Of memory' (rootsOf pagingData other) (walkAddress baseAddress k) page

private theorem LeavesShared.cons {entryAt : Nat → PtEntry} {baseAddress first last : Nat}
    {memory₁ : PhysicalMemory} {context₁ : PagingData}
    (haligned : isAddressAligned baseAddress pageSize = true) (hfirst : first < last)
    (hlast : last ≤ 2 ^ 36)
    (h : ForestMapped pagingData memory space (walkAddress baseAddress first)
      (entryAt (walkAddress baseAddress first)) memory₁ context₁)
    (hshared : LeafShared pagingData memory space (walkAddress baseAddress first) memory₁)
    (htables : ∀ other path table, path.length ≤ 3 →
      memory₁.tableAt (rootsOf pagingData other) path = some table →
      memory'.tableAt (rootsOf pagingData other) path = some table)
    (h' : LeavesShared pagingData memory₁ space baseAddress (first + 1) last memory') :
    LeavesShared pagingData memory space baseAddress first last memory' := by
  intro other path hpath
  have hkept {page : PageEntry} {owner : Space}
      (hof : PageEntry.Of memory₁ (rootsOf pagingData owner) (walkAddress baseAddress first) page) :
      PageEntry.Of memory' (rootsOf pagingData owner) (walkAddress baseAddress first) page :=
    ⟨hof.path,htables owner _ _ (le_of_eq hof.length) hof.table⟩
  rcases h' other path hpath with hsame | ⟨hsmall,k,page,hle,hlt,rfl,hof,hof'⟩
  · by_cases hself : path = tableOffsets (walkAddress baseAddress first)
    · subst hself
      rcases hshared other with hleaf | ⟨hsmall,page,hof,hof'⟩
      · exact Or.inl (hsame.trans hleaf)
      · exact Or.inr ⟨hsmall,first,page,le_rfl,hfirst,rfl,hkept hof,hkept hof'⟩
    · exact Or.inl (hsame.trans (h.others other path hpath hself))
  · right
    have hself : tableOffsets (walkAddress baseAddress k) ≠
        tableOffsets (walkAddress baseAddress first) := by
      intro heq
      have hindex := walkAddress_injective haligned (by omega) (by omega) heq
      omega
    refine ⟨?_,k,page,by omega,hlt,rfl,hof,hof'⟩
    intro entry levels hleaf
    rw [← h.others other _ hpath hself] at hleaf
    exact hsmall entry levels hleaf

private theorem ForestMapped.range {entryAt : Nat → PtEntry} {baseAddress first last : Nat}
    {memory₁ : PhysicalMemory} {context₁ : PagingData}
    (haligned : isAddressAligned baseAddress pageSize = true) (hfirst : first < last)
    (hlast : last ≤ 2 ^ 36)
    (h : ForestMapped pagingData memory space (walkAddress baseAddress first)
      (entryAt (walkAddress baseAddress first)) memory₁ context₁)
    (h' : ForestRangeMapped (Function.update pagingData space context₁) memory₁ space entryAt
      baseAddress (first + 1) last memory' context) :
    ForestRangeMapped pagingData memory space entryAt baseAddress first last memory' context := by
  obtain ⟨hforest,hpool,htables,hmapped,hfresh,hentries⟩ := h'
  rw [Function.update_idem] at hforest
  rw [Function.update_self] at hpool
  rw [rootsOf_update h.pool] at htables hmapped hfresh hentries
  obtain ⟨page₁,hpage₁,hfresh₁,hentries₁⟩ := h.entries
  have hpage : PageEntry.Of memory' (rootsOf pagingData space) (walkAddress baseAddress first) page₁ :=
    ⟨hpage₁.path,htables space page₁.path page₁.table (by have := hpage₁.length; omega) hpage₁.table⟩
  have hother : ∀ k, first + 1 ≤ k → k < last →
      ¬ PageEntry.Of memory' (rootsOf pagingData space) (walkAddress baseAddress k) page₁ := by
    intro k hle hlt hof
    have hsame := walkAddress_injective haligned (by omega) (by omega) (hpage.tableOffsets_eq hof)
    omega
  refine ⟨hforest,?_,?_,?_,?_,?_⟩
  · rw [PagingData.SamePool,hpool,h.pool]
  · intro other path table hpath htable
    exact htables other path table hpath (h.tables other path table hpath htable)
  · intro k hle hlt
    by_cases hk : k = first
    · exact ⟨page₁,hk ▸ hpage⟩
    · exact hmapped k (by omega) hlt
  · intro hnone k page entry hle hlt hof hold
    by_cases hk : k = first
    · subst k
      obtain rfl := hof.unique hpage
      exact hfresh₁ (hnone first le_rfl hfirst) entry hold
    · have hne : page ≠ page₁ := by
        rintro rfl
        exact hother k (by omega) hlt hof
      refine hfresh ?_ k page entry (by omega) hlt hof
        ((hentries₁ page entry).mpr (Or.inr ⟨hne,hold⟩))
      intro j hle hlt
      rw [h.others space _ rfl]
      · exact hnone j (by omega) hlt
      · intro heq
        have hsame := walkAddress_injective haligned (by omega) (by omega) heq
        omega
  · intro page entry
    rw [hentries page entry,hentries₁ page entry]
    constructor
    · rintro (⟨k,hle,hlt,hof,heq⟩ | ⟨hnot,⟨rfl,rfl⟩ | ⟨hne,hold⟩⟩)
      · exact Or.inl ⟨k,by omega,hlt,hof,heq⟩
      · exact Or.inl ⟨first,le_rfl,hfirst,hpage,rfl⟩
      · refine Or.inr ⟨?_,hold⟩
        intro k hle hlt hof
        by_cases hk : k = first
        · subst k
          exact hne (hof.unique hpage)
        · exact hnot k (by omega) hlt hof
    · rintro (⟨k,hle,hlt,hof,rfl⟩ | ⟨hnot,hold⟩)
      · by_cases hk : k = first
        · subst k
          obtain rfl := hof.unique hpage
          exact Or.inr ⟨hother,Or.inl ⟨rfl,rfl⟩⟩
        · exact Or.inl ⟨k,by omega,hlt,hof,rfl⟩
      · refine Or.inr ⟨fun k hle hlt => hnot k (by omega) hlt,Or.inr ⟨?_,hold⟩⟩
        rintro rfl
        exact hnot first le_rfl hfirst hpage

private theorem walkPages_forestMap {cr3 : Pml4} {baseAddress : Nat}
    (haligned : isAddressAligned baseAddress pageSize = true) (count first : Nat)
    (hbound : first + count ≤ 2 ^ 36) {s s' : WalkState PagingData}
    (hcontext : s.context = pagingData space) (h : PagingForest s.memory pagingData)
    (hroot : cr3.physicalAddress * pageSize = rootsOf pagingData space)
    (hset : request.invalidate = true ∨ ∀ k, first ≤ k → k < first + count →
      s.memory.leafAt (rootsOf pagingData space) (tableOffsets (walkAddress baseAddress k)) = none)
    (hwalk : walkPages (vmMapPage vmmData request) cr3 baseAddress count (first * pageSize) s =
      some s') :
    ForestRangeMapped pagingData s.memory space
        (mapEntry vmmData request (pagingData space).kernelSpace) baseAddress first (first + count)
        s'.memory s'.context ∧
      LeavesShared pagingData s.memory space baseAddress first (first + count) s'.memory := by
  induction count generalizing first s pagingData with
  | zero =>
    obtain rfl := Option.some.inj hwalk
    rw [hcontext]
    refine ⟨⟨by rwa [Function.update_eq_self],rfl,fun _ _ _ _ htable => htable,?_,?_,?_⟩,
      fun _ _ _ => Or.inl rfl⟩
    · intro k hle hlt
      omega
    · intro _ k page entry hle hlt
      omega
    · intro page entry
      constructor
      · intro hold
        exact Or.inr ⟨fun k hle hlt => by omega,hold⟩
      · rintro (⟨k,hle,hlt,_⟩ | ⟨_,hold⟩)
        · omega
        · exact hold
  | succ count ih =>
    simp only [walkPages,Option.bind_eq_bind,Option.bind_eq_some_iff] at hwalk
    obtain ⟨s₁,hpage,hrest⟩ := hwalk
    rw [hroot] at hpage
    have hoffset : first * pageSize + pageSize = (first + 1) * pageSize := by ring
    rw [hoffset] at hrest
    have hset₁ : request.invalidate = true ∨ s.memory.leafAt (rootsOf pagingData space)
        (tableOffsets (walkAddress baseAddress first)) = none :=
      hset.imp id fun hnone => hnone first le_rfl (by omega)
    obtain ⟨hmapped,hshared⟩ := walkStructures_forestMap vmmData request _ (q := []) (by simp) rfl
      hcontext h hset₁ rfl hpage
    have hlast : first + (count + 1) = first + 1 + count := by omega
    rw [hlast] at hset ⊢
    have hkernel : (Function.update pagingData space s₁.context space).kernelSpace =
        (pagingData space).kernelSpace := by
      rw [Function.update_self,hmapped.pool]
    have hbound₁ : first + 1 + count ≤ 2 ^ 36 := by omega
    have hroot₁ : cr3.physicalAddress * pageSize =
        rootsOf (Function.update pagingData space s₁.context) space :=
      hroot.trans (congrFun (rootsOf_update hmapped.pool) space).symm
    have hset₂ : request.invalidate = true ∨ ∀ k, first + 1 ≤ k → k < first + 1 + count →
        s₁.memory.leafAt (rootsOf (Function.update pagingData space s₁.context) space)
          (tableOffsets (walkAddress baseAddress k)) = none := by
      refine hset.imp id fun hnone k hle hlt => ?_
      rw [rootsOf_update hmapped.pool,hmapped.others space _ rfl]
      · exact hnone k (by omega) hlt
      · intro heq
        have hsame := walkAddress_injective haligned (by omega) (by omega) heq
        omega
    have hcontext₁ : s₁.context = Function.update pagingData space s₁.context space := by
      rw [Function.update_self]
    obtain ⟨hrange,hleaves⟩ := ih (first + 1) hbound₁ hcontext₁ hmapped.forest hroot₁ hset₂ hrest
    rw [hkernel] at hrange
    refine ⟨hmapped.range haligned (by omega) (by omega) hrange,?_⟩
    have htables := hrange.tables
    rw [rootsOf_update hmapped.pool] at htables
    have hleaves' : LeavesShared pagingData s₁.memory space baseAddress (first + 1)
        (first + 1 + count) s'.memory := by
      simp only [LeavesShared,rootsOf_update hmapped.pool] at hleaves
      exact hleaves
    exact hleaves'.cons haligned (by omega) (by omega) hmapped hshared htables

/-- A mapping that returns has set the entries of its pages if it may replace those there are,
or there are none; other address spaces share the entries or keep their leaves. -/
theorem vmmMapMemoryInternal_shared (h : PagingForest memory pagingData) (space : Space)
    {physicalAddress size baseAddress : Nat} {pageRights : PageRights}
    {invalidate uncacheable : Bool}
    (haligned : isAddressAligned baseAddress pageSize = true) (hsize : size ≤ 2 ^ 48)
    (hset : invalidate = true ∨ ∀ k, k < size / pageSize → memory.leafAt (rootsOf pagingData space)
      (tableOffsets (walkAddress baseAddress k)) = none) {s : WalkState PagingData}
    (hmap : vmmMapMemoryInternal vmmData memory (pagingData space) physicalAddress size baseAddress
      pageRights invalidate uncacheable = some s) :
    ForestRangeMapped pagingData memory space (mapEntry vmmData
          ⟨physicalAddress,baseAddress,pageRights,invalidate,uncacheable⟩
          (pagingData space).kernelSpace)
        baseAddress 0 (size / pageSize) s.memory s.context ∧
      LeavesShared pagingData memory space baseAddress 0 (size / pageSize) s.memory := by
  simp only [vmmMapMemoryInternal,Option.bind_eq_bind,Option.bind_eq_some_iff] at hmap
  obtain ⟨_,_,_,hsizes,hwalk⟩ := hmap
  have hsizes := assert_eq_some.mp hsizes
  have hcount : (size + (pageSize - 1)) / pageSize = 0 + size / pageSize := by
    simp only [Bool.and_eq_true,isAddressAligned,beq_iff_eq,pageSize] at hsizes ⊢
    omega
  have hbound : 0 + size / pageSize ≤ 2 ^ 36 := by
    unfold pageSize
    omega
  unfold vmWalkPagingTables at hwalk
  rw [hcount,Nat.zero_add] at hwalk
  have hzero : 0 * pageSize = 0 := Nat.zero_mul _
  rw [← hzero] at hwalk
  have hmapped := walkPages_forestMap vmmData ⟨physicalAddress,baseAddress,pageRights,invalidate,
    uncacheable⟩ haligned (size / pageSize) 0 hbound (s := ⟨memory,pagingData space⟩) (by rfl) h
    (h.wellFormed space).cr3_table (hset.imp id fun hnone k _ hk => hnone k (by omega)) hwalk
  rwa [Nat.zero_add] at hmapped

theorem vmmMapMemoryInternal_forest (h : PagingForest memory pagingData) (space : Space)
    {physicalAddress size baseAddress : Nat} {pageRights : PageRights}
    {invalidate uncacheable : Bool}
    (haligned : isAddressAligned baseAddress pageSize = true) (hsize : size ≤ 2 ^ 48)
    (hset : invalidate = true ∨ ∀ k, k < size / pageSize → memory.leafAt (rootsOf pagingData space)
      (tableOffsets (walkAddress baseAddress k)) = none) {s : WalkState PagingData}
    (hmap : vmmMapMemoryInternal vmmData memory (pagingData space) physicalAddress size baseAddress
      pageRights invalidate uncacheable = some s) :
    ForestRangeMapped pagingData memory space (mapEntry vmmData
        ⟨physicalAddress,baseAddress,pageRights,invalidate,uncacheable⟩ (pagingData space).kernelSpace)
      baseAddress 0 (size / pageSize) s.memory s.context :=
  (vmmMapMemoryInternal_shared vmmData h space haligned hsize hset hmap).1

/-- The physical address a page is mapped to. -/
def mappedTo (memory : PhysicalMemory) (root virtualAddress : Nat) : Option Nat :=
  (memory.leafAt root (tableOffsets virtualAddress)).map fun leaf => leaf.1.physicalAddress

/-- An address space unmaps a page: its entry of the last level is cleared, and no other. -/
structure ForestUnmapped (pagingData : Space → PagingData) (memory : PhysicalMemory) (space : Space)
    (virtualAddress : Nat) (memory' : PhysicalMemory) : Prop where
  forest : PagingForest memory' pagingData
  tables : ∀ other path, path.length ≤ 3 →
    memory'.tableAt (rootsOf pagingData other) path = memory.tableAt (rootsOf pagingData other) path
  others : ∀ other path, path.length = 4 → path ≠ tableOffsets virtualAddress →
    memory'.leafAt (rootsOf pagingData other) path = memory.leafAt (rootsOf pagingData other) path
  mapped : ∀ pa, mappedTo memory (rootsOf pagingData space) virtualAddress = some pa →
    ∃ page entry, PageEntry.Of memory (rootsOf pagingData space) virtualAddress page ∧
      PageEntry.Holds memory (rootsOf pagingData) page entry ∧ entry.physicalAddress = pa
  entries : ∀ page entry, PageEntry.Holds memory' (rootsOf pagingData) page entry ↔
    PageEntry.Holds memory (rootsOf pagingData) page entry ∧
      ¬ PageEntry.Of memory (rootsOf pagingData space) virtualAddress page

variable (releaseMemory : Bool)

omit [DecidableEq Space] in
private theorem walkStructures_forestUnmap (rest : List (Fin 512)) (hrest : rest ≠ [])
    {q : List (Fin 512)} {table : Nat} (hsplit : q ++ rest = tableOffsets virtualAddress)
    {s s' : WalkState (List Nat)} (h : PagingForest s.memory pagingData)
    (htable : s.memory.tableAt (rootsOf pagingData space) q = some table)
    (hwalk : walkStructures (vmUnmapPage releaseMemory) virtualAddress (q.length + 1) rest table s =
      some s') :
    ForestUnmapped pagingData s.memory space virtualAddress s'.memory ∧
      s'.context = s.context ++ if releaseMemory then
        (mappedTo s.memory (rootsOf pagingData space) virtualAddress).toList else [] := by
  induction rest generalizing q table with
  | nil => exact absurd rfl hrest
  | cons offset rest ih =>
    have hlen := length_of_split hsplit
    simp only [walkStructures,Option.bind_eq_bind,Option.bind_eq_some_iff] at hwalk
    obtain ⟨⟨continueWalk,s₁⟩,hstep,hwalk⟩ := hwalk
    rcases vmUnmapPage_cases hstep with ⟨hpresent,rfl,rfl⟩ | ⟨hpresent,rfl,hcases⟩
    · obtain rfl := Option.some.inj hwalk
      have hnone : s₁.memory.leafAt (rootsOf pagingData space) (tableOffsets virtualAddress) =
          none := by
        have hfollow : s₁.memory.leafAt (rootsOf pagingData space) (q ++ offset :: rest) =
            s₁.memory.leafAt table (offset :: rest) := leafAt_append htable (by simp)
        rw [← hsplit,hfollow]
        exact leafAt_empty (slot_of_not_present hpresent) rest
      refine ⟨⟨h,fun _ _ _ => rfl,fun _ _ _ _ => rfl,?_,?_⟩,?_⟩
      · intro pa hpa
        rw [mappedTo,hnone] at hpa
        cases hpa
      · intro page entry
        constructor
        · intro hold
          refine ⟨hold,fun hof => ?_⟩
          rw [hof.leafAt,hold.entry_eq,if_pos hold.present] at hnone
          cases hnone
        · exact fun hold => hold.1
      · simp [mappedTo,hnone]
    · obtain ⟨_,hsmall,hwalk⟩ := Option.bind_eq_some_iff.mp hwalk
      rcases hcases with ⟨hlast,rfl⟩ | ⟨hlast,rfl⟩
      · have hq : q.length = 3 := by omega
        obtain rfl : rest = [] := List.length_eq_zero_iff.mp (by omega)
        obtain rfl := Option.some.inj hwalk
        obtain ⟨hforest,htables,hothers,hentries⟩ := h.writeEntry hq htable offset ptEntryZero
        rw [hsplit] at hothers
        have hof : PageEntry.Of s.memory (rootsOf pagingData space) virtualAddress
            ⟨q,table,offset⟩ := ⟨hsplit,htable⟩
        have hmapped : mappedTo s.memory (rootsOf pagingData space) virtualAddress =
            some (s.memory table offset).physicalAddress := by
          rw [mappedTo,hof.leafAt,if_pos hpresent]
          rfl
        refine ⟨⟨hforest,htables,hothers,?_,?_⟩,?_⟩
        · intro pa hpa
          exact ⟨⟨q,table,offset⟩,s.memory table offset,hof,⟨hq,⟨space,htable⟩,rfl,hpresent⟩,
            Option.some.inj (hmapped.symm.trans hpa)⟩
        · intro page entry
          rw [hentries page entry]
          constructor
          · rintro (⟨_,_,hzero⟩ | ⟨hne,hold⟩)
            · cases hzero
            · exact ⟨hold,fun hpage => hne (hpage.unique hof)⟩
          · rintro ⟨hold,hnot⟩
            refine Or.inr ⟨?_,hold⟩
            rintro rfl
            exact hnot hof
        · rw [hmapped]
          cases releaseMemory with
          | false => exact (List.append_nil _).symm
          | true => rfl
      · have hlevel : q.length ≠ 3 := by omega
        have hsmall : (s₁.memory table offset).pageSize = false := by
          simpa [pagingTablesLastLevel,hlevel] using hsmall
        have hrest : rest ≠ [] := by
          rintro rfl
          simp at hlen
          omega
        exact ih hrest (q := q ++ [offset]) (by simpa using hsplit)
          (tableAt_concat htable hpresent hsmall) (by simpa using hwalk)

/-- An address space unmaps the pages of a walk from one number to another. -/
structure ForestRangeUnmapped (pagingData : Space → PagingData) (memory : PhysicalMemory)
    (space : Space) (baseAddress first last : Nat) (memory' : PhysicalMemory) : Prop where
  forest : PagingForest memory' pagingData
  tables : ∀ other path, path.length ≤ 3 →
    memory'.tableAt (rootsOf pagingData other) path = memory.tableAt (rootsOf pagingData other) path
  mapped : ∀ k pa, first ≤ k → k < last →
    mappedTo memory (rootsOf pagingData space) (walkAddress baseAddress k) = some pa →
    ∃ page entry, PageEntry.Of memory (rootsOf pagingData space) (walkAddress baseAddress k) page ∧
      PageEntry.Holds memory (rootsOf pagingData) page entry ∧ entry.physicalAddress = pa
  entries : ∀ page entry, PageEntry.Holds memory' (rootsOf pagingData) page entry ↔
    PageEntry.Holds memory (rootsOf pagingData) page entry ∧ ∀ k, first ≤ k → k < last →
      ¬ PageEntry.Of memory (rootsOf pagingData space) (walkAddress baseAddress k) page

/-- The frames that unmapping the pages of a range gives to `MmuReleaseMemory`, in order. -/
def releasedFrames (memory : PhysicalMemory) (root baseAddress first count : Nat) : List Nat :=
  (List.range' first count).filterMap fun k => mappedTo memory root (walkAddress baseAddress k)

omit [DecidableEq Space] in
private theorem walkPages_forestUnmap {cr3 : Pml4} {baseAddress : Nat}
    (haligned : isAddressAligned baseAddress pageSize = true) (count first : Nat)
    (hbound : first + count ≤ 2 ^ 36) {s s' : WalkState (List Nat)}
    (h : PagingForest s.memory pagingData)
    (hroot : cr3.physicalAddress * pageSize = rootsOf pagingData space)
    (hwalk : walkPages (vmUnmapPage releaseMemory) cr3 baseAddress count (first * pageSize) s =
      some s') :
    ForestRangeUnmapped pagingData s.memory space baseAddress first (first + count) s'.memory ∧
      s'.context = s.context ++ if releaseMemory then
        releasedFrames s.memory (rootsOf pagingData space) baseAddress first count else [] := by
  induction count generalizing first s with
  | zero =>
    obtain rfl := Option.some.inj hwalk
    refine ⟨⟨h,fun _ _ _ => rfl,fun k _ hle hlt => by omega,?_⟩,?_⟩
    · intro page entry
      constructor
      · intro hold
        exact ⟨hold,fun k hle hlt => by omega⟩
      · exact fun hold => hold.1
    · simp [releasedFrames]
  | succ count ih =>
    simp only [walkPages,Option.bind_eq_bind,Option.bind_eq_some_iff] at hwalk
    obtain ⟨s₁,hpage,hrest⟩ := hwalk
    rw [hroot] at hpage
    have hoffset : first * pageSize + pageSize = (first + 1) * pageSize := by ring
    rw [hoffset] at hrest
    obtain ⟨hunmapped,hcontext₁⟩ := walkStructures_forestUnmap releaseMemory _ (q := []) (by simp)
      rfl h rfl hpage
    have hbound₁ : first + 1 + count ≤ 2 ^ 36 := by omega
    obtain ⟨⟨hforest,htables,hmapped,hentries⟩,hcontext⟩ := ih (first + 1) hbound₁ hunmapped.forest hrest
    have hlast : first + (count + 1) = first + 1 + count := by omega
    have hof : ∀ k page, PageEntry.Of s₁.memory (rootsOf pagingData space)
        (walkAddress baseAddress k) page ↔
          PageEntry.Of s.memory (rootsOf pagingData space) (walkAddress baseAddress k) page := by
      intro k page
      constructor
      · intro hpage
        have hlength := hpage.length
        exact ⟨hpage.path,(hunmapped.tables space _ (by omega)).symm.trans hpage.table⟩
      · intro hpage
        have hlength := hpage.length
        exact ⟨hpage.path,(hunmapped.tables space _ (by omega)).trans hpage.table⟩
    have hothers : ∀ k, first + 1 ≤ k → k < first + (count + 1) →
        mappedTo s₁.memory (rootsOf pagingData space) (walkAddress baseAddress k) =
          mappedTo s.memory (rootsOf pagingData space) (walkAddress baseAddress k) := by
      intro k hle hlt
      rw [mappedTo,mappedTo,hunmapped.others space _ rfl]
      intro heq
      have hsame := walkAddress_injective haligned (by omega) (by omega) heq
      omega
    refine ⟨⟨hforest,?_,?_,?_⟩,?_⟩
    · intro other path hpath
      rw [htables other path hpath,hunmapped.tables other path hpath]
    · intro k pa hle hlt hpa
      by_cases hk : k = first
      · rw [hk] at hpa ⊢
        exact hunmapped.mapped pa hpa
      · rw [← hothers k (by omega) hlt] at hpa
        obtain ⟨page,entry,hpage,hold,haddress⟩ := hmapped k pa (by omega) (by omega) hpa
        exact ⟨page,entry,(hof k page).mp hpage,((hunmapped.entries page entry).mp hold).1,haddress⟩
    · intro page entry
      rw [hentries page entry,hunmapped.entries page entry,hlast]
      simp only [hof]
      constructor
      · rintro ⟨⟨hold,hnot⟩,hrange⟩
        refine ⟨hold,fun k hle hlt => ?_⟩
        by_cases hk : k = first
        · rw [hk]
          exact hnot
        · exact hrange k (by omega) hlt
      · rintro ⟨hold,hrange⟩
        exact ⟨⟨hold,hrange first le_rfl (by omega)⟩,fun k hle hlt => hrange k (by omega) hlt⟩
    · rw [hcontext,hcontext₁,List.append_assoc]
      congr 1
      cases releaseMemory with
      | false => rfl
      | true =>
        have hsame : releasedFrames s₁.memory (rootsOf pagingData space) baseAddress (first + 1)
            count =
              releasedFrames s.memory (rootsOf pagingData space) baseAddress (first + 1) count := by
          apply List.filterMap_congr
          intro k hk
          have hk := List.mem_range'_1.mp hk
          exact hothers k hk.1 (by omega)
        simp only [if_true,hsame]
        simp only [releasedFrames,List.range'_succ,List.filterMap_cons]
        change (mappedTo s.memory (rootsOf pagingData space)
          (walkAddress baseAddress first)).toList ++ _ = _
        cases mappedTo s.memory (rootsOf pagingData space) (walkAddress baseAddress first) <;> rfl

omit [DecidableEq Space] in
/-- An unmapping that returns has cleared the entries of its pages, unless it refuses the
range. -/
theorem vmmUnmapMemoryEx_forest (h : PagingForest memory pagingData) (space : Space)
    {baseAddress size : Nat} (hsize : size ≤ 2 ^ 48) {s : WalkState (List Nat)}
    (hunmap : vmmUnmapMemoryEx memory ⟨(pagingData space).basePhysicalAddress⟩ baseAddress size
      releaseMemory = some s) :
    (baseAddress = 0 ∨ isAddressAligned baseAddress pageSize = false ∨ size = 0 ∨
        isAddressAligned size pageSize = false) ∧ s = ⟨memory,[]⟩ ∨
      isAddressAligned baseAddress pageSize = true ∧
        ForestRangeUnmapped pagingData memory space baseAddress 0 (size / pageSize) s.memory ∧
        s.context = if releaseMemory then
          releasedFrames memory (rootsOf pagingData space) baseAddress 0 (size / pageSize) else [] := by
  unfold vmmUnmapMemoryEx at hunmap
  split at hunmap
  · rename_i hbase
    exact Or.inl ⟨by tauto,(Option.some.inj hunmap).symm⟩
  · rename_i hbase
    split at hunmap
    · rename_i hrange
      exact Or.inl ⟨by tauto,(Option.some.inj hunmap).symm⟩
    · rename_i hrange
      right
      simp only [not_or,Bool.not_eq_false] at hbase hrange
      have hcount := pageCount_of_aligned hrange.2
      have hbound : 0 + size / pageSize ≤ 2 ^ 36 := by
        unfold pageSize
        omega
      unfold vmWalkPagingTables at hunmap
      have hzero : 0 * pageSize = 0 := Nat.zero_mul _
      rw [hcount,← hzero] at hunmap
      obtain ⟨hunmapped,hcontext⟩ := walkPages_forestUnmap releaseMemory hbase.2 (size / pageSize) 0
        hbound (s := ⟨memory,[]⟩) h (h.wellFormed space).cr3_table hunmap
      rw [Nat.zero_add] at hunmapped
      exact ⟨hbase.2,hunmapped,hcontext⟩

omit [DecidableEq Space] in
private theorem walkStructures_unmap_returns (hva : virtualAddress ≠ 0) (rest : List (Fin 512))
    (level : Nat) (hlevel : 1 ≤ level) (hlen : level + rest.length = 5) (table : Nat)
    (s : WalkState (List Nat)) (hsmall : SmallLeaf s.memory table rest) :
    ∃ s', walkStructures (vmUnmapPage releaseMemory) virtualAddress level rest table s = some s' := by
  induction rest generalizing level table with
  | nil => exact ⟨s,rfl⟩
  | cons offset rest ih =>
    have hassert : assertCallback virtualAddress level = some () := by
      rw [List.length_cons] at hlen
      have hne : assert (virtualAddress != 0) = some () := assert_eq_some.mpr (bne_iff_ne.mpr hva)
      have hbounds : pagingTablesFirstLevel ≤ level ∧ level ≤ pagingTablesLastLevel :=
        ⟨hlevel,by rw [pagingTablesLastLevel]; omega⟩
      rw [assertCallback,hne]
      exact assert_eq_some.mpr (decide_eq_true hbounds)
    cases hpresent : (s.memory table offset).present with
    | false =>
      refine ⟨s,?_⟩
      simp [walkStructures,vmUnmapPage,hassert,hpresent]
    | true =>
      cases rest with
      | nil =>
        obtain rfl : level = 4 := by simpa using hlen
        simp [walkStructures,vmUnmapPage,hassert,hpresent,pagingTablesLastLevel,assert]
      | cons offset' rest =>
        have hlast : level ≠ 4 := by
          simp only [List.length_cons] at hlen
          omega
        have hpageSize : (s.memory table offset).pageSize = false := by
          cases hlarge : (s.memory table offset).pageSize with
          | false => rfl
          | true =>
            have hslot : (s.memory table offset).slot = .leaf := by
              simp [PtEntry.slot,hpresent,hlarge]
            have hzero := hsmall (s.memory table offset) (rest.length + 1)
              (by simp [PhysicalMemory.leafAt,RadixTree.leafAt,hslot])
            omega
        have hnext := ih (level + 1) (by omega)
          (by simp only [List.length_cons] at hlen ⊢; omega)
          (s.memory table offset).physicalAddress ?_
        · obtain ⟨s',hs'⟩ := hnext
          refine ⟨s',?_⟩
          simp [walkStructures,vmUnmapPage,hassert,hpresent,hlast,pagingTablesLastLevel,assert,
            hpageSize] at hs' ⊢
          exact hs'
        · intro entry levels hleaf
          refine hsmall entry levels ?_
          rw [PhysicalMemory.leafAt,RadixTree.leafAt_table (target_of_present hpresent hpageSize)
            (by simp)]
          exact hleaf

omit [DecidableEq Space] in
private theorem walkPages_unmap_returns {cr3 : Pml4} {baseAddress : Nat}
    (haligned : isAddressAligned baseAddress pageSize = true) (count first : Nat)
    (hbound : first + count ≤ 2 ^ 36) {s : WalkState (List Nat)}
    (h : PagingForest s.memory pagingData)
    (hroot : cr3.physicalAddress * pageSize = rootsOf pagingData space)
    (hva : ∀ k, first ≤ k → k < first + count → walkAddress baseAddress k ≠ 0)
    (hsmall : ∀ k, first ≤ k → k < first + count →
      SmallLeaf s.memory (rootsOf pagingData space) (tableOffsets (walkAddress baseAddress k))) :
    ∃ s', walkPages (vmUnmapPage releaseMemory) cr3 baseAddress count (first * pageSize) s =
      some s' := by
  induction count generalizing first s with
  | zero => exact ⟨s,rfl⟩
  | succ count ih =>
    obtain ⟨s₁,hpage⟩ := walkStructures_unmap_returns releaseMemory (hva first le_rfl (by omega)) _ 1
      le_rfl rfl _ s (hsmall first le_rfl (by omega))
    obtain ⟨hunmapped,-⟩ := walkStructures_forestUnmap releaseMemory _ (q := []) (by simp) rfl h rfl
      hpage
    have hnext := ih (first + 1) (by omega) hunmapped.forest
      (fun k hle hlt => hva k (by omega) (by omega)) ?_
    · obtain ⟨s',hs'⟩ := hnext
      refine ⟨s',?_⟩
      have hoffset : first * pageSize + pageSize = (first + 1) * pageSize := by ring
      simp only [walkPages,hroot,hoffset,Option.bind_eq_bind,Option.bind_eq_some_iff]
      exact ⟨s₁,hpage,hs'⟩
    · intro k hle hlt entry levels hleaf
      refine hsmall k (by omega) (by omega) entry levels ?_
      rw [← hunmapped.others space _ rfl]
      · exact hleaf
      · intro heq
        have hsame := walkAddress_injective haligned (by omega) (by omega) heq
        omega

omit [DecidableEq Space] in
theorem vmmUnmapMemoryEx_returns (h : PagingForest memory pagingData) (space : Space)
    {baseAddress size : Nat} (hsize : size ≤ 2 ^ 48)
    (hva : ∀ k < size / pageSize, walkAddress baseAddress k ≠ 0)
    (hsmall : ∀ k < size / pageSize,
      SmallLeaf memory (rootsOf pagingData space) (tableOffsets (walkAddress baseAddress k))) :
    ∃ s, vmmUnmapMemoryEx memory ⟨(pagingData space).basePhysicalAddress⟩ baseAddress size
      releaseMemory = some s := by
  by_cases hbase : baseAddress = 0 ∨ isAddressAligned baseAddress pageSize = false
  · exact ⟨_,by rw [vmmUnmapMemoryEx,if_pos hbase]⟩
  · by_cases hrange : size = 0 ∨ isAddressAligned size pageSize = false
    · exact ⟨_,by rw [vmmUnmapMemoryEx,if_neg hbase,if_pos hrange]⟩
    · rw [vmmUnmapMemoryEx,if_neg hbase,if_neg hrange,vmWalkPagingTables]
      simp only [not_or,Bool.not_eq_false] at hbase hrange
      have hcount := pageCount_of_aligned hrange.2
      have hbound : 0 + size / pageSize ≤ 2 ^ 36 := by
        unfold pageSize
        omega
      have hzero : 0 * pageSize = 0 := Nat.zero_mul _
      rw [hcount,← hzero]
      exact walkPages_unmap_returns releaseMemory hbase.2 (size / pageSize) 0 hbound h
        (h.wellFormed space).cr3_table (fun k _ hk => hva k (by omega))
        (fun k _ hk => hsmall k (by omega))

end Forest

end Hal9000
