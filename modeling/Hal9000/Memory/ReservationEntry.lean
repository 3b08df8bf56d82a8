import Hal9000.Memory.ReservationAtomic
import Hal9000.Memory.UserBuffer

/-!
# The entry of a new reservation

An allocation that reserves and commits fills the first free entry of the list, unless a live
reservation contains the range. A release by address empties the first entry that contains the
address, which need not be the one that was filled.
-/

namespace Hal9000

section Reservations

variable {reservationSize : Nat} {space space' : VmmReservationSpace} {address base size : Nat}

theorem vmReservationSpaceFreeRegion_release (hshape : ListShape reservationSize space)
    (haddress : address ≠ 0) {result : (Nat × Nat) × Option VmmReservation × VmmReservationSpace} :
    vmReservationSpaceFreeRegion reservationSize space address .release = some result ↔
      ∃ k r, space.FirstCovering address 1 k r ∧ r.commitBitmap.bitmapBuffer % pageSize = 0 ∧
        result = ((r.startVa,r.size),some r,{ space with
          entries := space.entries.set k vmmReservationZero }) := by
  constructor
  · intro h
    simp only [vmReservationSpaceFreeRegion,Option.bind_eq_bind,Option.bind_eq_some_iff] at h
    obtain ⟨_,_,found,hfound,k,rfl,r,hr,_,haligned,h⟩ := h
    obtain ⟨r',hlive,hin⟩ := (vmFindReservation_spec hshape hfound).1 k rfl
    obtain rfl : r' = r := Option.some.inj (hlive.1.symm.trans hr)
    exact ⟨k,r',⟨hlive,hin,vmFindReservation_first hfound⟩,
      beq_iff_eq.mp (assert_eq_some.mp haligned),(Option.some.inj h).symm⟩
  · rintro ⟨k,r,hfirst,haligned,rfl⟩
    obtain ⟨found,hfound⟩ := vmFindReservation_eq reservationSize space haddress Nat.one_ne_zero
    obtain ⟨k',r',rfl,hfirst'⟩ := exists_firstCovering hshape hfound hfirst.live hfirst.covers
    obtain ⟨rfl,rfl⟩ := firstCovering_unique hfirst hfirst'
    have hassert : assert (address != 0) = some () := assert_eq_some.mpr (bne_iff_ne.mpr haddress)
    have hassert' : assert (isAddressAligned r.commitBitmap.bitmapBuffer pageSize) = some () :=
      assert_eq_some.mpr (beq_iff_eq.mpr haligned)
    simp only [vmReservationSpaceFreeRegion,hassert,hfound,Option.bind_eq_bind,Option.bind_some,
      hfirst.live.1,hassert']
    rfl

/-- The entry that the next reservation gets. -/
def VmmReservationSpace.FirstFree (reservationSize : Nat) (space : VmmReservationSpace) (k : Nat) :
    Prop :=
  (findFirstFreeFrom reservationSize space 0 space.entries).map Prod.fst = some k

private theorem findFirstFreeFrom_congr (hlist : space'.reservationList = space.reservationList)
    (hstart : space'.bitmapAddressStart = space.bitmapAddressStart) (index : Nat)
    (entries : List VmmReservation) :
    findFirstFreeFrom reservationSize space' index entries =
      findFirstFreeFrom reservationSize space index entries := by
  induction entries generalizing index with
  | nil => rfl
  | cons reservation rest ih =>
    simp only [findFirstFreeFrom,VmmReservationSpace.entryAddress,hlist,hstart]
    rw [ih]
    rfl

private theorem firstFree_moved (pointer k : Nat) :
    VmmReservationSpace.FirstFree reservationSize
        { space with freeVirtualAddressPointer := pointer } k ↔
      space.FirstFree reservationSize k := by
  have hsame := @findFirstFreeFrom_congr reservationSize space
    { space with freeVirtualAddressPointer := pointer } rfl rfl 0 space.entries
  unfold VmmReservationSpace.FirstFree
  rw [hsame]

private theorem effect_reserve (hshape : ListShape reservationSize space) {range : Nat × Nat}
    {rights : PageRights} {uncacheable : Bool} {file : Option Nat}
    (h : Effect reservationSize space (.reserve range rights uncacheable file) space') :
    ∃ k, space.FirstFree reservationSize k ∧
      (∀ i r, space.Live i r → checkBounds range.1 range.2 r.startVa r.size = false) ∧
      (∀ old, ¬ space.Live k old) ∧ ∀ i r', space'.Live i r' ↔
        i = k ∧ r' = newReservation space range rights uncacheable file ∨
          i ≠ k ∧ space.Live i r' := by
  cases h with
  | reserve hargs hnew hfound haligned hfits =>
    refine ⟨_,?_,hnew,live_reserve_entry hshape rfl hfound rfl⟩
    obtain ⟨found',hfind,hsame⟩ := Option.map_eq_some_iff.mp hfound
    rw [VmmReservationSpace.FirstFree,hfind,Option.map_some,(Prod.mk.inj hsame).1]

private theorem pageInterval_whole {r : VmmReservation} {interval : Nat × Nat}
    (hstart : r.startVa = base) (h : pageInterval base size r = some interval) :
    interval = (0,size / pageSize) := by
  have hsame : ptrDiff base base = 0 := by
    simp only [ptrDiff,qwordModulus]
    omega
  simp only [pageInterval,Option.bind_eq_bind,Option.bind_eq_some_iff,hstart,hsame,
    Nat.zero_div] at h
  obtain ⟨_,_,_,_,_,_,_,_,_,_,_,_,h⟩ := h
  exact (Option.some.inj h).symm

theorem alloc_makes_reservation (hshape : ListShape reservationSize space) {request : AllocRequest}
    (htype : request.allocType = ⟨true,true⟩)
    (halloc : vmReservationSpaceAllocRegion reservationSize space request =
      some (.success,some (base,size),space')) :
    (allocRange space request.baseAddress request.size).1 = some (base,size) ∧
      ∃ k, space.FirstFree reservationSize k ∧ ListShape reservationSize space' ∧
      (∀ old, ¬ space.Live k old) ∧
      (∀ i r, space.Live i r → checkBounds base size r.startVa r.size = false) ∧
      ∀ i r, space'.Live i r ↔ i = k ∧ r = committedReservation space request (base,size) ∨
        i ≠ k ∧ space.Live i r := by
  obtain ⟨hrange,pointer,space₁,heffect₁,heffect₂⟩ :=
    vmReservationSpaceAllocRegion_effect hshape halloc
  rw [htype] at heffect₁ heffect₂
  have hshape₀ : ListShape reservationSize { space with freeVirtualAddressPointer := pointer } :=
    hshape.of_entries rfl rfl rfl
  have hshape₁ := Effect.shape hshape₀ heffect₁
  obtain ⟨k,hk,hnew,hvacant,hlive⟩ := effect_reserve hshape₀ heffect₁
  refine ⟨hrange,k,(firstFree_moved pointer k).mp hk,Effect.shape hshape₁ heffect₂,hvacant,hnew,?_⟩
  cases heffect₂ with
  | @commit _ interval k₂ r₂ hlive₂ hin hinterval =>
    rcases (hlive k₂ r₂).mp hlive₂ with ⟨rfl,rfl⟩ | ⟨-,hold⟩
    · obtain rfl := @pageInterval_whole base size _ _ rfl hinterval
      intro i r
      rw [live_rewrite hlive₂ rfl rfl i r]
      constructor
      · rintro (hself | ⟨hne,hother⟩)
        · exact Or.inl hself
        · exact Or.inr ⟨hne,((hlive i r).mp hother).resolve_left (fun h => hne h.1) |>.2⟩
      · rintro (hself | ⟨hne,hold⟩)
        · exact Or.inl hself
        · exact Or.inr ⟨hne,(hlive i r).mpr (Or.inr ⟨hne,hold⟩)⟩
    · rw [hnew k₂ r₂ hold] at hin
      cases hin

private theorem reserve_refused (hshape : ListShape reservationSize space) {range : Nat × Nat}
    {rights : PageRights} {uncacheable : Bool} {file : Option Nat} {status : Status}
    (h : vmChangeVaReservationState reservationSize space range.1 range.2 .reserve rights
      uncacheable file = some (status,space')) (hstatus : status ≠ .success) :
    ∃ i r, space.Live i r ∧ checkBounds range.1 range.2 r.startVa r.size = true := by
  simp only [vmChangeVaReservationState,Option.bind_eq_bind,Option.bind_eq_some_iff] at h
  obtain ⟨_,_,_,_,_,_,_,_,found,hfound,h⟩ := h
  cases found with
  | some k =>
    obtain ⟨r,hlive,hin⟩ := (vmFindReservation_spec hshape hfound).1 k rfl
    exact ⟨k,r,hlive,hin⟩
  | none =>
    simp only [Option.bind_eq_some_iff] at h
    obtain ⟨_,_,_,_,h⟩ := h
    exact absurd (Prod.mk.inj (Option.some.inj h)).1.symm hstatus

/-- The address space grants the range: no reservation contains it, or, where it is only committed,
the first one that does has the attributes of the request. -/
def VmmReservationSpace.Grants (space : VmmReservationSpace) (request : AllocRequest)
    (base size : Nat) : Prop :=
  if request.allocType.reserve = true then
    ∀ i r, space.Live i r → checkBounds base size r.startVa r.size = false
  else ∃ k r, space.FirstCovering base size k r ∧ r.pageRights = request.rights ∧
    r.uncacheable = request.uncacheable

theorem commit_granted_iff (hshape : ListShape reservationSize space) {request : AllocRequest}
    {status : Status}
    (h : vmChangeVaReservationState reservationSize space base size .commit request.rights
      request.uncacheable request.fileObject = some (status,space')) :
    status = .success ↔ ∃ k r, space.FirstCovering base size k r ∧ r.pageRights = request.rights ∧
      r.uncacheable = request.uncacheable := by
  simp only [vmChangeVaReservationState,Option.bind_eq_bind,Option.bind_eq_some_iff] at h
  obtain ⟨_,_,_,_,_,_,_,_,found,hfound,h⟩ := h
  cases found with
  | none =>
    obtain ⟨rfl,-⟩ := Prod.mk.inj (Option.some.inj h)
    refine iff_of_false (by decide) ?_
    rintro ⟨k,r,hfirst,-,-⟩
    have hout := (vmFindReservation_spec hshape hfound).2 rfl k r hfirst.live
    rw [hfirst.covers] at hout
    cases hout
  | some k =>
    obtain ⟨r,hr,h⟩ := Option.bind_eq_some_iff.mp h
    obtain ⟨r',hlive,hin⟩ := (vmFindReservation_spec hshape hfound).1 k rfl
    obtain rfl : r' = r := Option.some.inj (hlive.1.symm.trans hr)
    have hfirst : space.FirstCovering base size k r' := ⟨hlive,hin,vmFindReservation_first hfound⟩
    have hsame : (∃ k r, space.FirstCovering base size k r ∧ r.pageRights = request.rights ∧
        r.uncacheable = request.uncacheable) ↔
          r'.pageRights = request.rights ∧ r'.uncacheable = request.uncacheable := by
      constructor
      · rintro ⟨j,r,hfirst',hrights⟩
        obtain ⟨-,rfl⟩ := firstCovering_unique hfirst hfirst'
        exact hrights
      · exact fun hrights => ⟨k,r',hfirst,hrights⟩
    rw [hsame]
    by_cases hrights : r'.pageRights = request.rights
    · rw [if_neg (not_not_intro hrights)] at h
      by_cases hcache : r'.uncacheable = request.uncacheable
      · rw [if_neg (not_not_intro hcache)] at h
        obtain ⟨_,_,h⟩ := Option.bind_eq_some_iff.mp h
        exact iff_of_true (Prod.mk.inj (Option.some.inj h)).1.symm ⟨hrights,hcache⟩
      · rw [if_pos hcache] at h
        obtain ⟨rfl,-⟩ := Prod.mk.inj (Option.some.inj h)
        exact iff_of_false (by decide) fun hboth => hcache hboth.2
    · rw [if_pos hrights] at h
      obtain ⟨rfl,-⟩ := Prod.mk.inj (Option.some.inj h)
      exact iff_of_false (by decide) fun hboth => hrights hboth.1

theorem alloc_granted_iff (hshape : ListShape reservationSize space) {request : AllocRequest}
    {status : Status} {range : Option (Nat × Nat)}
    (halloc : vmReservationSpaceAllocRegion reservationSize space request =
      some (status,range,space')) :
    status = .success ↔ ∃ base size,
      (allocRange space request.baseAddress request.size).1 = some (base,size) ∧
        space.Grants request base size := by
  simp only [vmReservationSpaceAllocRegion,Option.bind_eq_bind,Option.bind_eq_some_iff] at halloc
  obtain ⟨_,_,_,hflags,h⟩ := halloc
  have hflags := assert_eq_some.mp hflags
  obtain ⟨pointer,hmoved⟩ := allocRange_moved space request.baseAddress request.size
  generalize allocRange space request.baseAddress request.size = moved at hmoved h ⊢
  obtain ⟨found,space₀⟩ := moved
  simp only at hmoved
  subst space₀
  have hshape₀ : ListShape reservationSize { space with freeVirtualAddressPointer := pointer } :=
    hshape.of_entries rfl rfl rfl
  cases found with
  | none =>
    obtain ⟨rfl,-⟩ := Prod.mk.inj (Option.some.inj h)
    refine iff_of_false (by decide) ?_
    rintro ⟨_,_,hnone,-⟩
    cases hnone
  | some range' =>
    obtain ⟨base,size⟩ := range'
    have hgrants : (∃ base' size', some (base,size) = some (base',size') ∧
        space.Grants request base' size') ↔ space.Grants request base size := by
      constructor
      · rintro ⟨_,_,hsame,hgrants⟩
        obtain ⟨rfl,rfl⟩ := Prod.mk.inj (Option.some.inj hsame)
        exact hgrants
      · exact fun hgrants => ⟨base,size,rfl,hgrants⟩
    rw [hgrants,VmmReservationSpace.Grants]
    simp only [vmReservationSpaceChangeRange,Option.bind_eq_bind,Option.bind_eq_some_iff] at h
    obtain ⟨⟨status₁,space₁⟩,hreserve,h⟩ := h
    cases hflag : request.allocType.reserve with
    | true =>
      rw [if_pos rfl]
      rw [changeIfFlagged,hflag,if_pos rfl] at hreserve
      by_cases hstatus : status₁ = .success
      · rcases reserve_effect hshape₀ hreserve with ⟨hne,-⟩ | ⟨-,heffect⟩
        · exact absurd hstatus hne
        · obtain ⟨-,-,hnew,-⟩ := heffect.live_reserve hshape₀
          refine iff_of_true ?_ hnew
          rw [if_neg (not_not_intro hstatus)] at h
          obtain ⟨⟨status₂,space₂⟩,hcommit,h⟩ := Option.bind_eq_some_iff.mp h
          have hstatus₂ : status₂ = .success := by
            cases hcommits : request.allocType.commit with
            | false =>
              rw [changeIfFlagged,hcommits] at hcommit
              exact (Prod.mk.inj (Option.some.inj hcommit)).1.symm
            | true =>
              rw [changeIfFlagged,hcommits,if_pos rfl] at hcommit
              obtain ⟨k,r,-,-,-,hfollows⟩ := commit_follows hshape₀ heffect
              rw [hfollows] at hcommit
              exact (Prod.mk.inj (Option.some.inj hcommit)).1.symm
          rw [if_neg (not_not_intro hstatus₂)] at h
          exact (Prod.mk.inj (Option.some.inj h)).1.symm
      · rw [if_pos hstatus] at h
        obtain ⟨rfl,-⟩ := Prod.mk.inj (Option.some.inj h)
        obtain ⟨i,r,hlive,hin⟩ := reserve_refused hshape₀ hreserve hstatus
        refine iff_of_false hstatus fun hnew => ?_
        rw [hnew i r hlive] at hin
        cases hin
    | false =>
      rw [if_neg (by decide)]
      rw [changeIfFlagged,hflag] at hreserve
      obtain ⟨rfl,rfl⟩ := Prod.mk.inj (Option.some.inj hreserve)
      rw [if_neg (not_not_intro rfl)] at h
      obtain ⟨⟨status₂,space₂⟩,hcommit,h⟩ := Option.bind_eq_some_iff.mp h
      have hcommits : request.allocType.commit = true := by rwa [hflag,Bool.or_false] at hflags
      rw [changeIfFlagged,hcommits,if_pos rfl] at hcommit
      have hgranted := commit_granted_iff hshape₀ hcommit
      have hstatus : status = status₂ := by
        by_cases hstatus₂ : status₂ = .success
        · rw [if_neg (not_not_intro hstatus₂)] at h
          rw [hstatus₂]
          exact (Prod.mk.inj (Option.some.inj h)).1.symm
        · rw [if_pos hstatus₂] at h
          exact (Prod.mk.inj (Option.some.inj h)).1.symm
      rw [hstatus,hgranted]
      constructor
      · rintro ⟨k,r,hfirst,hrights⟩
        exact ⟨k,r,⟨hfirst.live,hfirst.covers,hfirst.first⟩,hrights⟩
      · rintro ⟨k,r,hfirst,hrights⟩
        exact ⟨k,r,⟨hfirst.live,hfirst.covers,hfirst.first⟩,hrights⟩

theorem alloc_refused (hshape : ListShape reservationSize space) {request : AllocRequest}
    (htype : request.allocType = ⟨true,true⟩) (hbase : request.baseAddress = 0) {status : Status}
    {range : Option (Nat × Nat)}
    (halloc : vmReservationSpaceAllocRegion reservationSize space request =
      some (status,range,space')) (hfailed : status ≠ .success ∨ range = none) :
    ∃ i r, space.Live i r ∧ checkBounds space.freeVirtualAddressPointer
      (alignAddressUpper request.size pageSize) r.startVa r.size = true := by
  obtain ⟨hstatus,-⟩ := alloc_failed_moves hshape halloc hfailed
  have hrefused := mt (alloc_granted_iff hshape halloc).mpr hstatus
  by_contra hnone
  refine hrefused ⟨space.freeVirtualAddressPointer,alignAddressUpper request.size pageSize,?_,?_⟩
  · rw [allocRange,if_neg (not_not_intro hbase)]
    rfl
  · rw [VmmReservationSpace.Grants,htype,if_pos rfl]
    intro i r hlive
    rw [← Bool.not_eq_true]
    exact fun hin => hnone ⟨i,r,hlive,hin⟩

end Reservations

end Hal9000
