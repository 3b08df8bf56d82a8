import Hal9000.Memory.ReservationPageMap

/-!
# Allocations that fail

`VmReservationSpaceAllocRegion` has no roll-back code. It needs none: of the two steps of an
allocation only the first can fail, as the reservation that the first step makes is the one the
second step finds.
-/

namespace Hal9000

section Atomic

variable {reservationSize : Nat} {space space' : VmmReservationSpace}

/-- Both steps have taken effect: there is one more reservation, with the range and attributes of
the call, and all its pages are committed. -/
def ReservedAndCommitted (space : VmmReservationSpace) (request : AllocRequest)
    (range : Nat × Nat) (space' : VmmReservationSpace) : Prop :=
  ∃ k r, (∀ i r', space'.Live i r' ↔ i = k ∧ r' = r ∨ i ≠ k ∧ space.Live i r') ∧
    (∀ old, ¬ space.Live k old) ∧ (r.startVa,r.size) = range ∧
    r.attributes = ⟨range.1,request.rights,request.uncacheable,request.fileObject⟩ ∧
    ∀ page ∈ r.pages, r.IsCommitted page

/-- The entry of a new reservation, all of it committed. -/
def committedReservation (space : VmmReservationSpace) (request : AllocRequest)
    (range : Nat × Nat) : VmmReservation :=
  let r := newReservation space range request.rights request.uncacheable request.fileObject
  { r with commitBitmap := bitmapSetBits r.commitBitmap 0 (range.2 / pageSize) }

private theorem changeRange_follows (hshape : ListShape reservationSize space)
    {request : AllocRequest} (htype : request.allocType = ⟨true,true⟩) {range : Nat × Nat}
    {reserved : VmmReservationSpace}
    (hreserve : vmChangeVaReservationState reservationSize space range.1 range.2 .reserve
      request.rights request.uncacheable request.fileObject = some (.success,reserved)) :
    ∃ space', vmReservationSpaceChangeRange reservationSize space request range =
        some (.success,some range,space') ∧ ReservedAndCommitted space request range space' := by
  rcases reserve_effect hshape hreserve with ⟨hne,-⟩ | ⟨-,heffect⟩
  · exact absurd rfl hne
  · obtain ⟨k,r,rfl,hlive,hvacant,hcommit⟩ := commit_follows hshape heffect
    obtain ⟨-,hargs,-⟩ := heffect.live_reserve hshape
    have hrun : vmReservationSpaceChangeRange reservationSize space request range =
        some (.success,some range,{ reserved with
          entries := reserved.entries.set k (committedReservation space request range) }) := by
      simp only [vmReservationSpaceChangeRange,changeIfFlagged,htype,if_true,hreserve,
        Option.bind_eq_bind,Option.bind_some,hcommit,ne_eq,not_true_eq_false,if_false]
      rfl
    refine ⟨_,hrun,k,committedReservation space request range,?_,hvacant,rfl,rfl,?_⟩
    · intro i r'
      have hnew := (hlive k _).mpr (Or.inl ⟨rfl,rfl⟩)
      rw [live_rewrite (r := committedReservation space request range) hnew rfl rfl i r']
      constructor
      · rintro (hself | ⟨hne,hother⟩)
        · exact Or.inl hself
        · rcases (hlive i r').mp hother with ⟨heq,-⟩ | hold
          · exact absurd heq hne
          · exact Or.inr hold
      · rintro (hself | ⟨hne,hold⟩)
        · exact Or.inl hself
        · exact Or.inr ⟨hne,(hlive i r').mpr (Or.inr ⟨hne,hold⟩)⟩
    · intro page hpage
      obtain ⟨hfirst,hlast⟩ := Set.mem_Ico.mp hpage
      have hsum : (range.1 + range.2) / pageSize = range.1 / pageSize + range.2 / pageSize := by
        have haligned := hargs.size_aligned
        simp only [pageSize] at haligned ⊢
        omega
      have hin : 0 ≤ page - range.1 / pageSize ∧
          page - range.1 / pageSize < 0 + range.2 / pageSize := by
        change range.1 / pageSize ≤ page at hfirst
        change page < (range.1 + range.2) / pageSize at hlast
        omega
      change (decide (0 ≤ page - range.1 / pageSize ∧
        page - range.1 / pageSize < 0 + range.2 / pageSize) || _) = true
      rw [decide_eq_true hin,Bool.true_or]

theorem alloc_failed_moves (hshape : ListShape reservationSize space)
    {request : AllocRequest} {status : Status} {range : Option (Nat × Nat)}
    (halloc : vmReservationSpaceAllocRegion reservationSize space request =
      some (status,range,space')) (hfailed : status ≠ .success ∨ range = none) :
    status ≠ .success ∧
      ∃ pointer, space' = { space with freeVirtualAddressPointer := pointer } := by
  simp only [vmReservationSpaceAllocRegion,Option.bind_eq_bind,Option.bind_eq_some_iff] at halloc
  obtain ⟨_,_,_,_,h⟩ := halloc
  obtain ⟨pointer,hmoved⟩ := allocRange_moved space request.baseAddress request.size
  generalize allocRange space request.baseAddress request.size = moved at hmoved h
  obtain ⟨found,space₀⟩ := moved
  simp only at hmoved
  subst space₀
  have hshape₀ : ListShape reservationSize { space with freeVirtualAddressPointer := pointer } :=
    hshape.of_entries rfl rfl rfl
  cases found with
  | none =>
    obtain ⟨rfl,-,rfl⟩ := Prod.mk.inj (Option.some.inj h) |>.imp id Prod.mk.inj
    exact ⟨by decide,pointer,rfl⟩
  | some range' =>
    rcases vmReservationSpaceChangeRange_effect hshape₀ h with ⟨hne,-,rfl⟩ | ⟨rfl,rfl,-⟩
    · exact ⟨hne,pointer,rfl⟩
    · rcases hfailed with hne | hnone
      · exact absurd rfl hne
      · cases hnone

/-- An allocation that fails leaves all but the bump pointer as it was. With both flags, a reserve
that takes effect is followed by a commit that does, so that a call has both effects or fails. -/
theorem alloc_region_atomic {metadataBase reservationBase metadataSize : Nat}
    (hspace : (metadataSystem reservationSize metadataBase reservationBase
      metadataSize).Reachable space) (request : AllocRequest) :
    (∀ status mapped space', vmReservationSpaceAllocRegion reservationSize space request =
        some (status,mapped,space') → status ≠ .success →
      ∃ pointer, space' = { space with freeVirtualAddressPointer := pointer }) ∧
    (request.allocType = ⟨true,true⟩ → request.size ≠ 0 → ∀ range moved reserved,
      allocRange space request.baseAddress request.size = (some range,moved) →
      vmChangeVaReservationState reservationSize moved range.1 range.2 .reserve request.rights
        request.uncacheable request.fileObject = some (.success,reserved) →
      ∃ space', vmReservationSpaceAllocRegion reservationSize space request =
        some (.success,some range,space') ∧ ReservedAndCommitted space request range space') ∧
    (request.allocType = ⟨true,true⟩ → ∀ mapped space',
      vmReservationSpaceAllocRegion reservationSize space request =
        some (.success,mapped,space') →
      ∃ range, mapped = some range ∧ ReservedAndCommitted space request range space') := by
  obtain ⟨hshape,-⟩ := reachable_arguments hspace
  obtain ⟨pointer,hmoved⟩ := allocRange_moved space request.baseAddress request.size
  have hshape' : ListShape reservationSize
      (allocRange space request.baseAddress request.size).2 := by
    rw [hmoved]
    exact hshape.of_entries rfl rfl rfl
  have hcommitted : ∀ range space', ReservedAndCommitted
      (allocRange space request.baseAddress request.size).2 request range space' →
        ReservedAndCommitted space request range space' := by
    intro range space' h
    rw [hmoved] at h
    exact h
  refine ⟨fun status mapped space' hrun hfailed =>
    (alloc_failed_moves hshape hrun (Or.inl hfailed)).2,?_⟩
  rw [vmReservationSpaceAllocRegion]
  cases hrange : allocRange space request.baseAddress request.size with
  | mk found moved =>
    rw [hrange] at hmoved hshape' hcommitted
    simp only at hmoved hshape' hcommitted
    refine ⟨?_,?_⟩
    · intro htype hsize range moved' reserved heq hreserve
      obtain ⟨rfl,rfl⟩ := Prod.mk.inj heq
      obtain ⟨space',hchange,hboth⟩ := changeRange_follows hshape' htype hreserve
      refine ⟨space',?_,hcommitted range space' hboth⟩
      have hassert : assert (request.size != 0) = some () :=
        assert_eq_some.mpr (bne_iff_ne.mpr hsize)
      rw [hassert,htype]
      exact hchange
    · intro htype mapped space' hrun
      simp only [Option.bind_eq_bind,Option.bind_eq_some_iff] at hrun
      obtain ⟨_,_,_,_,hrun⟩ := hrun
      cases found with
      | none => cases hrun
      | some range =>
        have hchange : vmReservationSpaceChangeRange reservationSize moved request range =
            some (.success,mapped,space') := hrun
        simp only [vmReservationSpaceChangeRange,changeIfFlagged,htype,if_true,
          Option.bind_eq_bind,Option.bind_eq_some_iff] at hrun
        obtain ⟨⟨status,reserved⟩,hreserve,hrun⟩ := hrun
        by_cases hstatus : status = .success
        · subst hstatus
          obtain ⟨space₁,hchange₁,hboth⟩ := changeRange_follows hshape' htype hreserve
          obtain ⟨-,hmapped,hsame⟩ : _ ∧ mapped = some range ∧ space' = space₁ := by
            have heq := Option.some.inj (hchange.symm.trans hchange₁)
            exact ⟨trivial,(Prod.mk.inj (Prod.mk.inj heq).2).1,(Prod.mk.inj (Prod.mk.inj heq).2).2⟩
          exact ⟨range,hmapped,hsame ▸ hcommitted range space₁ hboth⟩
        · rw [if_pos hstatus] at hrun
          cases hrun
          exact absurd rfl hstatus

def reserveCommitRequest (baseAddress size : Nat) : AllocRequest :=
  ⟨baseAddress,size,⟨true,true⟩,pageRightsReadWrite,false,none⟩

/-- Three pages that are reserved and committed in one call, and a call for the second of them,
which is refused. -/
theorem alloc_region_atomic_two : ∃ space,
    vmReservationSpaceAllocRegion 56 exampleSpace (reserveCommitRequest 0 0x3000) =
      some (.success,some (0x1000000,0x3000),space) ∧
    ReservedAndCommitted exampleSpace (reserveCommitRequest 0 0x3000) (0x1000000,0x3000) space ∧
    ∃ space' pointer,
      vmReservationSpaceAllocRegion 56 space (reserveCommitRequest 0x1001000 0x1000) =
        some (.memoryAlreadyReserved,none,space') ∧
      space' = { space with freeVirtualAddressPointer := pointer } := by
  have hinit : (metadataSystem 56 0x10000 0x1000000 0x50000).Reachable exampleSpace :=
    .init ⟨_,rfl,rfl⟩
  have hfirst : (vmReservationSpaceAllocRegion 56 exampleSpace
      (reserveCommitRequest 0 0x3000)).map (fun p => (p.1,p.2.1)) =
        some (.success,some (0x1000000,0x3000)) := by decide +kernel
  obtain ⟨⟨status,mapped,space⟩,hrun,heq⟩ := Option.map_eq_some_iff.mp hfirst
  obtain ⟨rfl,rfl⟩ := Prod.mk.inj heq
  obtain ⟨range,hrange,hboth⟩ := (alloc_region_atomic hinit _).2.2 rfl _ _ hrun
  cases hrange
  refine ⟨space,hrun,hboth,?_⟩
  have hstep : (metadataSystem 56 0x10000 0x1000000 0x50000).Reachable space := by
    refine .step (a := .alloc (reserveCommitRequest 0 0x3000)) hinit trivial ?_
    change (vmReservationSpaceAllocRegion 56 exampleSpace (reserveCommitRequest 0 0x3000)).map
      (fun p => p.2.2) = some space
    rw [hrun]
    rfl
  have hsecond : ((vmReservationSpaceAllocRegion 56 exampleSpace
      (reserveCommitRequest 0 0x3000)).bind fun p => (vmReservationSpaceAllocRegion 56 p.2.2
        (reserveCommitRequest 0x1001000 0x1000)).map (fun p => (p.1,p.2.1))) =
          some (.memoryAlreadyReserved,none) := by decide +kernel
  rw [hrun,Option.bind_some] at hsecond
  obtain ⟨⟨status,mapped,space'⟩,hrun',heq'⟩ := Option.map_eq_some_iff.mp hsecond
  obtain ⟨rfl,rfl⟩ := Prod.mk.inj heq'
  obtain ⟨pointer,hsame⟩ := (alloc_region_atomic hstep _).1 _ _ _ hrun' (by decide)
  exact ⟨space',pointer,hrun',hsame⟩

end Atomic

end Hal9000
