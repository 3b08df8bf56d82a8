import Hal9000.Memory.RegionBacking
import Hal9000.Memory.ReservationEntry

/-!
# Stacks

`MmuAllocStack` reserves a stack and its guard pages, commits what is above the guard pages, and
returns the end. `MmuFreeStack` releases the reservation that contains its argument, and the end of
a stack is in no part of its reservation.
-/

namespace Hal9000

def stackGuardSize : Nat := 2 * pageSize

/-- The stack and its guard pages, in a `DWORD`. -/
def totalAllocationSize (stackSize : Nat) (protectStack : Bool) : Nat :=
  (stackSize + if protectStack then stackGuardSize else 0) % 2 ^ 32

theorem ptrOffset_lt (pointer offset : Nat) : ptrOffset pointer offset < qwordModulus :=
  Nat.mod_lt _ (by decide)

/-- The reservation of a stack, of which nothing is committed yet. -/
def stackReserveRequest (totalAllocationSize : Nat) : RegionRequest :=
  ⟨0,totalAllocationSize,⟨true,false⟩,false,pageRightsReadWrite,false,null_lt⟩

def stackCommitRequest (stackBase guardSize stackSize : Nat) (lazyMap : Bool) : RegionRequest :=
  ⟨ptrOffset stackBase guardSize,stackSize,⟨false,true⟩,!lazyMap,pageRightsReadWrite,false,
    ptrOffset_lt stackBase guardSize⟩

section Functions

variable {Process : Type} [DecidableEq Process]
variable (vmmData : VmmData) (reservationSize : Nat)

/-- `MmuAllocStack`; the stack `0` is `NULL`. -/
def mmuAllocStack (s : MemoryManager Process) (process : Option Process) (stackSize : Nat)
    (protectStack lazyMap : Bool) : Option (Nat × MemoryManager Process) := do
  assert (isAddressAligned stackSize pageSize)
  let guardSize := if protectStack then stackGuardSize else 0
  let total := totalAllocationSize stackSize protectStack
  let (stackBase, s) ← vmmAllocRegionEx vmmData reservationSize s process
    (stackReserveRequest total)
  if stackBase = 0 then return (0,s)
  let (committedBase, s) ← vmmAllocRegionEx vmmData reservationSize s process
    (stackCommitRequest stackBase guardSize stackSize lazyMap)
  if committedBase = 0 then return (0,s)
  return (ptrOffset stackBase total,s)

/-- `MmuFreeStack`. -/
def mmuFreeStack (s : MemoryManager Process) (process : Option Process) (stack : Nat) :
    Option (MemoryManager Process) := do
  assert (stack != 0)
  vmmFreeRegionEx reservationSize s process stack .release true

/-- The release of a stack ends the reservation at an index of the list, and no other one. -/
def FreesExactly (s : MemoryManager Process) (process : Option Process) (stack index : Nat) :
    Prop :=
  ∃ released, vmReservationSpaceFreeRegion reservationSize (s.space process) stack .release =
      some released ∧
    (∀ i r, released.2.2.Live i r ↔ i ≠ index ∧ (s.space process).Live i r) ∧
    ∀ s', mmuFreeStack reservationSize s process stack = some s' →
      s'.space = Function.update s.space process released.2.2

end Functions

/-- A live reservation, apart from what of it is committed. -/
def VmmReservationSpace.ReservedAt (space : VmmReservationSpace) (index start size : Nat) : Prop :=
  ∃ r, space.Live index r ∧ r.startVa = start ∧ r.size = size

/-- One reservation is there that was not there before. -/
def MakesReservation (space space' : VmmReservationSpace) (index base size : Nat) : Prop :=
  (∀ old, ¬ space.Live index old) ∧ ∀ i start length, space'.ReservedAt i start length ↔
    i = index ∧ start = base ∧ length = size ∨ i ≠ index ∧ space.ReservedAt i start length

section Allocation

variable {Process : Type} [DecidableEq Process] {vmmData : VmmData} {reservationSize : Nat}
  {s s' : MemoryManager Process} {process : Option Process} {space space' : VmmReservationSpace}

theorem vmmAllocRegionEx_allocated {request : RegionRequest} {base : Nat} (hbase : base ≠ 0)
    (h : vmmAllocRegionEx vmmData reservationSize s process request = some (base,s')) :
    ∃ size space, vmReservationSpaceAllocRegion reservationSize (s.space process)
        request.allocRequest = some (.success,some (base,size),space) ∧
      s'.space = Function.update s.space process space := by
  rw [← vmmAllocBackedRegion_plain vmmData reservationSize s process request none] at h
  obtain ⟨⟨locals,s₁⟩,htry,hfinally⟩ := Option.bind_eq_some_iff.mp h
  obtain ⟨hsucceeded,haddress,rfl⟩ := vmmAllocRegionFinally_address hfinally hbase
  rw [← haddress]
  cases vmmAllocRegionTry_ends htry with
  | refused _ _ => cases hsucceeded
  | unbacked halloc _ _ => exact ⟨_,_,halloc,rfl⟩
  | described _ _ hmdl => cases hmdl
  | noFrames halloc _ _ _ => exact ⟨_,_,halloc,rfl⟩
  | mapped halloc => exact ⟨_,_,halloc,rfl⟩

theorem reservedAt_rewrite {k : Nat} {old r : VmmReservation} (hold : space.Live k old)
    (hused : r.state = .used) (hentries : space'.entries = space.entries.set k r)
    (hsame : r.startVa = old.startVa ∧ r.size = old.size) (i start size : Nat) :
    space'.ReservedAt i start size ↔ space.ReservedAt i start size := by
  have hlive := live_rewrite hold hused hentries
  constructor
  · rintro ⟨r',hr',hstart,hsize⟩
    rcases (hlive i r').mp hr' with ⟨rfl,rfl⟩ | ⟨_,hr'⟩
    · exact ⟨old,hold,hsame.1.symm.trans hstart,hsame.2.symm.trans hsize⟩
    · exact ⟨r',hr',hstart,hsize⟩
  · rintro ⟨r',hr',hstart,hsize⟩
    by_cases hi : i = k
    · subst hi
      obtain rfl : old = r' := Option.some.inj (hold.1.symm.trans hr'.1)
      exact ⟨r,(hlive i r).mpr (Or.inl ⟨rfl,rfl⟩),hsame.1.trans hstart,hsame.2.trans hsize⟩
    · exact ⟨r',(hlive i r').mpr (Or.inr ⟨hi,hr'⟩),hstart,hsize⟩

theorem totalAllocationSize_aligned {stackSize : Nat} (haligned : stackSize % pageSize = 0)
    (protectStack : Bool) : alignAddressUpper (totalAllocationSize stackSize protectStack) pageSize =
      totalAllocationSize stackSize protectStack := by
  have hguard : (if protectStack then stackGuardSize else 0) % pageSize = 0 := by
    cases protectStack <;> rfl
  rw [totalAllocationSize]
  generalize (if protectStack then stackGuardSize else 0) = guardSize at hguard ⊢
  simp only [alignAddressUpper,alignAddressLower,qwordModulus,pageSize] at *
  omega

theorem stackReserve_makes (hshape : ListShape reservationSize space) {stackSize base size : Nat}
    {protectStack : Bool} (haligned : stackSize % pageSize = 0)
    (h : vmReservationSpaceAllocRegion reservationSize space
      (stackReserveRequest (totalAllocationSize stackSize protectStack)).allocRequest =
        some (.success,some (base,size),space')) :
    ∃ k, MakesReservation space space' k base (totalAllocationSize stackSize protectStack) := by
  obtain ⟨hrange,pointer,space₁,hreserve,hcommit⟩ := vmReservationSpaceAllocRegion_effect hshape h
  obtain rfl : space' = space₁ := hcommit
  have hshape₀ : ListShape reservationSize { space with freeVirtualAddressPointer := pointer } :=
    hshape.of_entries rfl rfl rfl
  obtain ⟨k,-,-,hvacant,hlive⟩ := Effect.live_reserve hshape₀ hreserve
  have hsize : size = totalAllocationSize stackSize protectStack := by
    rw [← totalAllocationSize_aligned haligned protectStack]
    exact (Prod.mk.inj (Option.some.inj hrange)).2.symm
  subst hsize
  refine ⟨k,hvacant,fun i start length => ?_⟩
  constructor
  · rintro ⟨r,hr,rfl,rfl⟩
    rcases (hlive i r).mp hr with ⟨rfl,rfl⟩ | ⟨hne,hold⟩
    · exact Or.inl ⟨rfl,rfl,rfl⟩
    · exact Or.inr ⟨hne,r,hold,rfl,rfl⟩
  · rintro (⟨rfl,rfl,rfl⟩ | ⟨hne,r,hold,hstart,hlength⟩)
    · exact ⟨_,(hlive i _).mpr (Or.inl ⟨rfl,rfl⟩),rfl,rfl⟩
    · exact ⟨r,(hlive i r).mpr (Or.inr ⟨hne,hold⟩),hstart,hlength⟩

theorem stackCommit_keeps (hshape : ListShape reservationSize space)
    {stackBase guardSize stackSize : Nat} {lazyMap : Bool} {range : Nat × Nat}
    (h : vmReservationSpaceAllocRegion reservationSize space
      (stackCommitRequest stackBase guardSize stackSize lazyMap).allocRequest =
        some (.success,some range,space')) (i start size : Nat) :
    space'.ReservedAt i start size ↔ space.ReservedAt i start size := by
  obtain ⟨-,pointer,_,rfl,hcommit⟩ := vmReservationSpaceAllocRegion_effect hshape h
  have hcommit : Effect reservationSize { space with freeVirtualAddressPointer := pointer }
    (.commit range) space' := hcommit
  cases hcommit with
  | @commit _ interval k r hlive _ _ =>
    have hold : space.Live k r := hlive
    exact reservedAt_rewrite (r := { r with
      commitBitmap := bitmapSetBits r.commitBitmap interval.1 interval.2 }) hold hlive.2 rfl
      ⟨rfl,rfl⟩ i start size

theorem mmuAllocStack_makes {metadataBase reservationBase metadataSize stackSize stack : Nat}
    {protectStack lazyMap : Bool}
    (hreach : (metadataSystem reservationSize metadataBase reservationBase metadataSize).Reachable
      (s.space process))
    (h : mmuAllocStack vmmData reservationSize s process stackSize protectStack lazyMap =
      some (stack,s')) (hstack : stack ≠ 0) :
    ∃ k base, stack = ptrOffset base (totalAllocationSize stackSize protectStack) ∧
      MakesReservation (s.space process) (s'.space process) k base
        (totalAllocationSize stackSize protectStack) ∧
      (metadataSystem reservationSize metadataBase reservationBase metadataSize).Reachable
        (s'.space process) ∧
      ∀ other ≠ process, s'.space other = s.space other := by
  simp only [mmuAllocStack,Option.bind_eq_bind,Option.bind_eq_some_iff] at h
  obtain ⟨_,haligned,⟨base,s₁⟩,hreserve,h⟩ := h
  have haligned : stackSize % pageSize = 0 := beq_iff_eq.mp (assert_eq_some.mp haligned)
  by_cases hbase : base = 0
  · rw [if_pos hbase] at h
    exact absurd (Prod.mk.inj (Option.some.inj h)).1.symm hstack
  · rw [if_neg hbase] at h
    obtain ⟨⟨committed,s₂⟩,hcommit,h⟩ := Option.bind_eq_some_iff.mp h
    by_cases hcommitted : committed = 0
    · simp only [if_pos hcommitted] at h
      exact absurd (Prod.mk.inj (Option.some.inj h)).1.symm hstack
    · simp only [if_neg hcommitted] at h
      obtain ⟨hend,rfl⟩ := Prod.mk.inj (Option.some.inj h)
      obtain ⟨size,space₁,halloc₁,hspace₁⟩ := vmmAllocRegionEx_allocated hbase hreserve
      obtain ⟨length,space₂,halloc₂,hspace₂⟩ := vmmAllocRegionEx_allocated hcommitted hcommit
      rw [hspace₁,Function.update_self] at halloc₂
      have hstep₁ : (metadataSystem reservationSize metadataBase reservationBase metadataSize).step
          (s.space process) (.alloc _) = some space₁ := Option.map_eq_some_iff.mpr ⟨_,halloc₁,rfl⟩
      have hstep₂ : (metadataSystem reservationSize metadataBase reservationBase metadataSize).step
          space₁ (.alloc _) = some space₂ := Option.map_eq_some_iff.mpr ⟨_,halloc₂,rfl⟩
      have hreach₁ := hreach.step trivial hstep₁
      have hspace : s₂.space = Function.update s.space process space₂ := by
        rw [hspace₂,hspace₁,Function.update_idem]
      obtain ⟨k,hmakes⟩ := stackReserve_makes (reachable_arguments hreach).1 haligned halloc₁
      refine ⟨k,base,hend.symm,⟨hmakes.1,?_⟩,?_,?_⟩
      · intro i start length
        rw [hspace,Function.update_self,
          stackCommit_keeps (reachable_arguments hreach₁).1 halloc₂ i start length]
        exact hmakes.2 i start length
      · rw [hspace,Function.update_self]
        exact hreach₁.step trivial hstep₂
      · intro other hother
        rw [hspace,Function.update_of_ne hother]

end Allocation

section Release

variable {Process : Type} [DecidableEq Process] {vmmData : VmmData}
  {reservationSize metadataBase reservationBase metadataSize : Nat}
  {s s' : MemoryManager Process} {process : Option Process} {k stack : Nat}

/-- A release ends the reservation at an index exactly when that is the first one that contains
the address. -/
theorem freesExactly_iff {r : VmmReservation}
    (hreach : (metadataSystem reservationSize metadataBase reservationBase metadataSize).Reachable
      (s.space process)) (hlive : (s.space process).Live k r) :
    FreesExactly reservationSize s process stack k ↔
      (s.space process).FirstCovering stack 1 k r := by
  obtain ⟨hshape,harguments⟩ := reachable_arguments hreach
  constructor
  · rintro ⟨released,hfree,hleft,-⟩
    have hstack : stack ≠ 0 := by
      obtain ⟨_,hassert,-⟩ := Option.bind_eq_some_iff.mp hfree
      exact bne_iff_ne.mp (assert_eq_some.mp hassert)
    obtain ⟨j,r',hfirst,-,rfl⟩ := (vmReservationSpaceFreeRegion_release hshape hstack).mp hfree
    have hj : j = k := by
      by_contra hne
      exact ((live_release hfirst.live rfl j r').mp ((hleft j r').mpr ⟨hne,hfirst.live⟩)).1 rfl
    subst hj
    obtain rfl : r' = r := Option.some.inj (hfirst.live.1.symm.trans hlive.1)
    exact hfirst
  · intro hfirst
    have hstack : stack ≠ 0 := by
      have hstart := (harguments k r hlive).base_ne_zero
      have hin := (checkBounds_eq_true.mp hfirst.covers).1
      omega
    have hfree := (vmReservationSpaceFreeRegion_release hshape hstack).mpr
      ⟨k,r,hfirst,reachable_bitmaps hreach k r hlive,rfl⟩
    refine ⟨_,hfree,live_release hlive rfl,fun s' h => ?_⟩
    obtain ⟨_,_,h⟩ := Option.bind_eq_some_iff.mp h
    obtain ⟨space,hstep,hspace⟩ := vmmFreeRegionEx_space h
    obtain ⟨released,hreleased,rfl⟩ := Option.map_eq_some_iff.mp hstep
    rw [hfree] at hreleased
    rw [hspace,← Option.some.inj hreleased]

theorem firstCovering_iff {space : VmmReservationSpace} {base size : Nat} {r : VmmReservation}
    (hlive : space.Live k r) (hstart : r.startVa = base) (hsize : r.size = size) :
    space.FirstCovering stack 1 k r ↔ base ≤ stack ∧ stack < base + size ∧
      ∀ i start length, i < k → space.ReservedAt i start length →
        ¬(start ≤ stack ∧ stack < start + length) := by
  constructor
  · intro h
    obtain ⟨hle,hlt⟩ := checkBounds_eq_true.mp h.covers
    refine ⟨by omega,by omega,?_⟩
    rintro i start length hi ⟨r',hr',rfl,rfl⟩ hin
    have hout := h.first i r' hi hr'
    rw [checkBounds_eq_true.mpr ⟨hin.1,by omega⟩] at hout
    cases hout
  · rintro ⟨hle,hlt,hfirst⟩
    refine ⟨hlive,checkBounds_eq_true.mpr ⟨by omega,by omega⟩,fun i r' hi hr' => ?_⟩
    rw [← Bool.not_eq_true,checkBounds_eq_true]
    intro hin
    exact hfirst i r'.startVa r'.size hi ⟨r',hr',rfl,rfl⟩ ⟨hin.1,by omega⟩

/-- A stack, as long as it is reserved, is released by an address in it that no reservation further
ahead contains, and by no other address; the one that the allocation returned is not in it. -/
theorem stack_freed_iff {stackSize : Nat} {protectStack lazyMap : Bool}
    (hreach : (metadataSystem reservationSize metadataBase reservationBase metadataSize).Reachable
      (s.space process))
    (halloc : mmuAllocStack vmmData reservationSize s process stackSize protectStack lazyMap =
      some (stack,s')) (hstack : stack ≠ 0) :
    ∃ k base size, size = totalAllocationSize stackSize protectStack ∧
      MakesReservation (s.space process) (s'.space process) k base size ∧
      ∀ t : MemoryManager Process,
        (metadataSystem reservationSize metadataBase reservationBase metadataSize).Reachable
          (t.space process) → (t.space process).ReservedAt k base size →
        (∀ kept, FreesExactly reservationSize t process kept k ↔
          base ≤ kept ∧ kept < base + size ∧ ∀ i start length, i < k →
            (t.space process).ReservedAt i start length →
              ¬(start ≤ kept ∧ kept < start + length)) ∧
        ¬FreesExactly reservationSize t process stack k := by
  obtain ⟨k,base,rfl,hmakes,-,-⟩ := mmuAllocStack_makes hreach halloc hstack
  refine ⟨k,base,_,rfl,hmakes,?_⟩
  rintro t hreach' ⟨r,hlive,hstart,hsize⟩
  refine ⟨fun kept => ?_,?_⟩
  · rw [freesExactly_iff hreach' hlive]
    exact firstCovering_iff hlive hstart hsize
  · rw [freesExactly_iff hreach' hlive,firstCovering_iff hlive hstart hsize]
    rintro ⟨hle,hlt,-⟩
    have hsmall : totalAllocationSize stackSize protectStack < 2 ^ 32 := Nat.mod_lt _ (by decide)
    simp only [ptrOffset,qwordModulus] at hle hlt
    omega

end Release

private theorem exampleStacks_reachable :
    (metadataSystem 56 0x10000 0x1000000 0x50000).Reachable (exampleManager.space (some ())) :=
  .init ⟨_,rfl,rfl⟩

private theorem reservedAt_listing {space : VmmReservationSpace} {k base size start length : Nat}
    (hlisting : space.listing = [(start,length,.used),(0,0,.last)])
    (h : space.ReservedAt k base size) : k = 0 ∧ base = start := by
  obtain ⟨r,⟨hentry,hused⟩,rfl,-⟩ := h
  have hlisted : [(start,length,VmmReservationState.used),(0,0,.last)][k]? =
      some (r.startVa,r.size,.used) := by
    rw [← hlisting,VmmReservationSpace.listing,List.getElem?_map,hentry,← hused]
    rfl
  cases k with
  | zero => exact ⟨rfl,(Prod.mk.inj (Option.some.inj hlisted)).1.symm⟩
  | succ k =>
    cases k with
    | zero => exact absurd (congrArg (fun p => p.2.2) (Option.some.inj hlisted)) (by simp)
    | succ k => cases hlisted

/-- The stack of a thread that is not the first one starts 40 bytes below its end. -/
theorem stack_freed_below : ∃ s' k,
    mmuAllocStack ⟨0,3⟩ 56 exampleManager (some ()) 0x8000 true true = some (0x100A000,s') ∧
      FreesExactly 56 s' (some ()) 0x1009FD8 k ∧ ¬FreesExactly 56 s' (some ()) 0x100A000 k := by
  have hcall : (mmuAllocStack ⟨0,3⟩ 56 exampleManager (some ()) 0x8000 true true).any
      (fun result => decide (result.1 = 0x100A000) && decide ((result.2.space (some ())).listing =
        [(0x1000000,0xA000,.used),(0,0,.last)])) = true := by
    decide +kernel
  obtain ⟨⟨stack,s'⟩,halloc,hresult⟩ := Option.any_eq_true _ _ |>.mp hcall
  rw [Bool.and_eq_true,decide_eq_true_eq,decide_eq_true_eq] at hresult
  obtain ⟨rfl,hlisting⟩ := hresult
  obtain ⟨k,base,size,rfl,hmakes,hfrees⟩ :=
    stack_freed_iff exampleStacks_reachable halloc (by decide)
  have hreserved := (hmakes.2 k base _).mpr (Or.inl ⟨rfl,rfl,rfl⟩)
  obtain ⟨-,-,-,-,hreach,-⟩ := mmuAllocStack_makes exampleStacks_reachable halloc (by decide)
  obtain ⟨hkept,hnot⟩ := hfrees s' hreach hreserved
  obtain ⟨rfl,rfl⟩ : k = 0 ∧ base = 0x1000000 := reservedAt_listing hlisting hreserved
  refine ⟨s',0,halloc,(hkept _).mpr ⟨by decide,by decide,?_⟩,hnot⟩
  intro i _ _ hi
  exact absurd hi (Nat.not_lt_zero i)

/-- The end of a stack is in no reservation; where another stack follows, it is the start of that
one, which is released in its place. -/
theorem stack_not_freed : ∃ s' s'',
    mmuAllocStack ⟨0,3⟩ 56 exampleManager (some ()) 0x8000 true true = some (0x100A000,s') ∧
      (∀ k, ¬FreesExactly 56 s' (some ()) 0x100A000 k) ∧
      mmuAllocStack ⟨0,3⟩ 56 s' (some ()) 0x8000 true true = some (0x1014000,s'') ∧
      (vmReservationSpaceFreeRegion 56 (s''.space (some ())) 0x100A000 .release).map (·.1) =
        some (0x100A000,0xA000) := by
  have hcall : (mmuAllocStack ⟨0,3⟩ 56 exampleManager (some ()) 0x8000 true true).any
      (fun result => decide (result.1 = 0x100A000) &&
        (vmReservationSpaceFreeRegion 56 (result.2.space (some ())) 0x100A000 .release).isNone &&
        (mmuAllocStack ⟨0,3⟩ 56 result.2 (some ()) 0x8000 true true).any (fun next =>
          decide (next.1 = 0x1014000) && decide ((vmReservationSpaceFreeRegion 56
            (next.2.space (some ())) 0x100A000 .release).map (·.1) = some (0x100A000,0xA000)))) =
      true := by
    decide +kernel
  obtain ⟨⟨stack,s'⟩,halloc,hresult⟩ := Option.any_eq_true _ _ |>.mp hcall
  rw [Bool.and_eq_true,Bool.and_eq_true,decide_eq_true_eq] at hresult
  obtain ⟨⟨rfl,hnone⟩,hnext⟩ := hresult
  obtain ⟨⟨stack',s''⟩,halloc',hresult'⟩ := Option.any_eq_true _ _ |>.mp hnext
  rw [Bool.and_eq_true,decide_eq_true_eq,decide_eq_true_eq] at hresult'
  obtain ⟨rfl,hreleased⟩ := hresult'
  refine ⟨s',s'',halloc,fun k hfrees => ?_,halloc',hreleased⟩
  obtain ⟨released,hfree,-⟩ := hfrees
  rw [hfree] at hnone
  cases hnone

end Hal9000
