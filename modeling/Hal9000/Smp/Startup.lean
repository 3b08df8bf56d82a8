import Hal9000.Framework.Barrier
import Hal9000.Smp.LowerMemory

/-!
# The start-up of the application processors

The BSP sets up the lower memory, wakes the other processors and waits until each has counted itself
in; only then does it take the lower memory away. Every processor runs on its own, so each step of
one may come between any two of the others.
-/

namespace Hal9000

/-- The words that are put on the stack of an AP for its first returns. -/
inductive StackWord
  | apInitCpu
  | poison
  | pcpu (apicId : Nat)
  | halActivateFpu
  | apAsmStub
  deriving DecidableEq

/-- What the 16-bit code of the trampoline leaves for its 32-bit code. -/
inductive TrampolineWord
  | transitionConfig (stackPhysicalAddress : Nat)
  | returnAddress
  | flags
  deriving DecidableEq

/-- What start-up is given: the MADT's processors in their order, the processor that runs it, and
the stacks that `CpuMuAllocCpu` gets. -/
structure StartupConfig where
  vmmData : VmmData
  highestPhysicalAddress : Nat
  virtualToPhysicalOffset : Nat
  image : TrampolineImage
  madt : List Nat
  bspApicId : Nat
  stackTop : Nat → Nat

def StartupConfig.aps (c : StartupConfig) : List Nat := c.madt.filter fun apicId =>
  apicId != c.bspApicId

/-- `SystemInit` from `SmpInit` to `SmpCleanupLowerMemory`. -/
inductive BspPc
  | smpInit
  | cpuMuInitCpu
  | signalApStartupEvent
  | smpSetupLowerMemory
  | smpWakeupAps
  | waitForSignal
  | smpCleanupLowerMemory
  | apsStarted
  | failed
  deriving DecidableEq

/-- An AP, with the `PCPU` that it has been given. -/
inductive ApPc
  | waitForSipi
  | trampolineStart
  -- RM16_to_PM32 and PM32_to_PM64
  | bits32
  | apInitCpu (cpu : Nat)
  | signalApStartupEvent (cpu : Nat)
  | awake (cpu : Nat)
  deriving DecidableEq

structure StartupState where
  lowerMemory : LowerMemory
  stackWord : Nat → Option StackWord
  /-- The physical memory that the trampoline writes before there is paging. -/
  lowWord : Nat → Option TrampolineWord
  cpuList : List Pcpu
  noOfCpus : Nat
  noOfActiveCpus : Nat
  apStartupEvent : Bool
  bsp : BspPc
  ap : Nat → ApPc

/-- Other code of the kernel maps and unmaps pages, and takes addresses for them. -/
inductive StartupAction
  | bsp
  | ap (apicId : Nat)
  | mapMemory (physicalAddress size baseAddress : Nat) (pageRights : PageRights)
      (invalidate uncacheable : Bool)
  | unmapMemory (virtualAddress size : Nat)
  | takeAddresses (space : VmmReservationSpace)

def qwordSize : Nat := 8
def shadowStackSize : Nat := 4 * qwordSize

def writeStackWords (stackWord : Nat → Option StackWord) : Nat → List StackWord →
    Nat → Option StackWord
  | _, [] => stackWord
  | address, word :: words =>
    writeStackWords (Function.update stackWord address (some word)) (address + qwordSize) words

/-- `_SmpSetupInitialApStack`. -/
def smpSetupInitialApStack (stackWord : Nat → Option StackWord) (initialStack cpu : Nat) :
    Option ((Nat → Option StackWord) × Nat) := do
  assert (initialStack != 0)
  assert (isAddressAligned initialStack pageSize)
  let stackTop := initialStack - shadowStackSize - qwordSize - qwordSize
  let stackWord := writeStackWords stackWord stackTop [.apInitCpu,.poison,.pcpu cpu]
  let stackTop := stackTop - shadowStackSize - qwordSize - qwordSize
  return (writeStackWords stackWord stackTop [.halActivateFpu,.apAsmStub],stackTop)

/-- What the loop of `SmpSetupLowerMemory` has built. -/
structure CpuSetup where
  stackWord : Nat → Option StackWord
  cpuList : List Pcpu
  noOfCpus : Nat

def smpSetupCpu (c : StartupConfig) (s : CpuSetup) (apicId : Nat) : Option CpuSetup :=
  if apicId = c.bspApicId then
    some ⟨s.stackWord,s.cpuList ++ [⟨apicId,true,c.stackTop apicId⟩],s.noOfCpus + 1⟩
  else do
    let (stackWord,stackTop) ← smpSetupInitialApStack s.stackWord (c.stackTop apicId) apicId
    return ⟨stackWord,s.cpuList ++ [⟨apicId,false,stackTop⟩],s.noOfCpus + 1⟩

/-- The returns of an AP: from the trampoline to `HalActivateFpu`, to `ApAsmStub`, which drops the
shadow space, and to `ApInitCpu` with its argument. -/
def apReturns (stackWord : Nat → Option StackWord) (stackVirtualAddress : Nat) : Option Nat := do
  assert (stackWord stackVirtualAddress == some .halActivateFpu)
  assert (stackWord (stackVirtualAddress + qwordSize) == some .apAsmStub)
  let rsp := stackVirtualAddress + 2 * qwordSize + shadowStackSize
  assert (stackWord rsp == some .apInitCpu)
  match stackWord (rsp + 2 * qwordSize) with
  | some (.pcpu cpu) => some cpu
  | _ => none

def transitionConfigSize : Nat := 0x18

/-- `SS` in the 16-bit code: byte 2 of the address of the stack is put in `AH`. -/
def trampolineStackSegment (stackPhysicalAddress : Nat) : Nat :=
  stackPhysicalAddress / 2 ^ 16 % 2 ^ 8 * 2 ^ 8

/-- `SP` in the 16-bit code, below the `TRANSITION_CONFIG`. -/
def trampolineStackPointer (stackPhysicalAddress : Nat) : Nat :=
  (stackPhysicalAddress + 2 ^ 16 - transitionConfigSize) % 2 ^ 16

/-- The address of an offset in a segment of real mode. -/
def realModeAddress (segment offset : Nat) : Nat := 16 * segment + offset

/-- `TrampolineStart`: the configuration is written at `DS:SP`, what is pushed goes to `SS:SP`. -/
def trampolineStart (lowWord : Nat → Option TrampolineWord) (stackPhysicalAddress : Nat) :
    Nat → Option TrampolineWord :=
  let ss := trampolineStackSegment stackPhysicalAddress
  let sp := trampolineStackPointer stackPhysicalAddress
  let lowWord := Function.update lowWord sp (some (.transitionConfig stackPhysicalAddress))
  let lowWord := Function.update lowWord (realModeAddress ss (sp - 2)) (some .returnAddress)
  Function.update lowWord (realModeAddress ss (sp - 6)) (some .flags)

/-- `RM16_to_PM32.bits32`: `ESP` is still what `SP` was, and the segment of the stack now starts at
address `0`. The stack that it goes on with. -/
def rm16ToPm32 (lowWord : Nat → Option TrampolineWord) (stackPhysicalAddress : Nat) :
    Option Nat := do
  let esp := trampolineStackPointer stackPhysicalAddress - 6
  assert (lowWord esp == some .flags)
  assert (lowWord (esp + 4) == some .returnAddress)
  match lowWord (esp + 6) with
  | some (.transitionConfig stackPhysicalAddress) => some stackPhysicalAddress
  | _ => none

/-- The walk of the processor finds the page at its own physical address, with the right. -/
def KernelMemory.reaches (kernel : KernelMemory) (page : Nat) (right : PtEntry → Bool) : Bool :=
  (kernel.leaf page).any fun leaf =>
    leaf.2 == 0 && leaf.1.physicalAddress == page && right leaf.1

/-- The INIT and start-up interrupts have been sent. -/
def BspPc.sipiSent : BspPc → Bool
  | .waitForSignal | .smpCleanupLowerMemory | .apsStarted => true
  | _ => false

section Steps

variable (c : StartupConfig)

def bspStep (s : StartupState) : Option StartupState :=
  match s.bsp with
  | .smpInit => some { s with noOfCpus := c.madt.length, bsp := .cpuMuInitCpu }
  | .cpuMuInitCpu => some { s with
      noOfActiveCpus := s.noOfActiveCpus + 1
      bsp := if s.noOfActiveCpus + 1 = s.noOfCpus then .signalApStartupEvent
        else .smpSetupLowerMemory }
  | .signalApStartupEvent => some { s with apStartupEvent := true, bsp := .smpSetupLowerMemory }
  | .smpSetupLowerMemory => do
    let setup ← c.madt.foldlM (smpSetupCpu c) ⟨s.stackWord,s.cpuList,0⟩
    let (succeeded,lowerMemory) ← apTrampSetupLowerMemory c.vmmData c.highestPhysicalAddress
      c.virtualToPhysicalOffset c.image s.lowerMemory setup.cpuList
    if succeeded then
      assert (s.noOfCpus == setup.noOfCpus)
      return { s with
        lowerMemory
        stackWord := setup.stackWord
        cpuList := setup.cpuList
        bsp := .smpWakeupAps }
    else return { s with lowerMemory, bsp := .failed }
  | .smpWakeupAps => some { s with
      bsp := if 1 < s.noOfCpus then .waitForSignal else .smpCleanupLowerMemory }
  | .waitForSignal =>
    if s.apStartupEvent then
      some { s with apStartupEvent := false, bsp := .smpCleanupLowerMemory }
    else none
  | .smpCleanupLowerMemory => do
    let kernel ← apTrampCleanupLowerMemory c.virtualToPhysicalOffset s.lowerMemory.kernel s.cpuList
    return { s with lowerMemory := { s.lowerMemory with kernel }, bsp := .apsStarted }
  | .apsStarted | .failed => none

def apStep (s : StartupState) (apicId : Nat) : Option StartupState :=
  if apicId ∈ c.aps then
    match s.ap apicId with
    | .waitForSipi =>
      if s.bsp.sipiSent then
        some { s with ap := Function.update s.ap apicId .trampolineStart }
      else none
    | .trampolineStart => do
      let entry ← s.lowerMemory.apConfig apicId
      return { s with
        lowWord := trampolineStart s.lowWord entry.stackPhysicalAddress
        ap := Function.update s.ap apicId .bits32 }
    | .bits32 => do
      let entry ← s.lowerMemory.apConfig apicId
      let stackPhysicalAddress ← rm16ToPm32 s.lowWord entry.stackPhysicalAddress
      -- from here on there is paging, and the first fault would be a triple fault
      assert (s.lowerMemory.kernel.reaches lowMemoryCodeStart PtEntry.executable)
      assert (s.lowerMemory.kernel.reaches (stackPhysicalAddress - lowMemoryStackSize) fun _ => true)
      assert (s.lowerMemory.kernel.reaches (entry.stackPhysicalAddress - lowMemoryStackSize)
        PtEntry.writable)
      let cpu ← apReturns s.stackWord entry.stackVirtualAddress
      return { s with ap := Function.update s.ap apicId (.apInitCpu cpu) }
    | .apInitCpu cpu => some { s with
        noOfActiveCpus := s.noOfActiveCpus + 1
        ap := Function.update s.ap apicId
          (if s.noOfActiveCpus + 1 = s.noOfCpus then .signalApStartupEvent cpu else .awake cpu) }
    | .signalApStartupEvent cpu => some { s with
        apStartupEvent := true
        ap := Function.update s.ap apicId (.awake cpu) }
    | .awake _ => none
  else none

def StartupState.setKernel (s : StartupState) (kernel : KernelMemory) : StartupState :=
  { s with lowerMemory := { s.lowerMemory with kernel } }

def startupStep (s : StartupState) : StartupAction → Option StartupState
  | .bsp => bspStep c s
  | .ap apicId => apStep c s apicId
  | .mapMemory physicalAddress size baseAddress pageRights invalidate uncacheable => do
    let kernel := s.lowerMemory.kernel
    let mapped ← vmmMapMemoryInternal c.vmmData kernel.memory kernel.pagingData physicalAddress size
      baseAddress pageRights invalidate uncacheable
    return s.setKernel { kernel with memory := mapped.memory, pagingData := mapped.context }
  | .unmapMemory virtualAddress size => do
    let kernel := s.lowerMemory.kernel
    let unmapped ← vmmUnmapMemoryEx kernel.memory ⟨kernel.pagingData.basePhysicalAddress⟩
      virtualAddress size false
    return s.setKernel { kernel with memory := unmapped.memory }
  | .takeAddresses space => some (s.setKernel { s.lowerMemory.kernel with space })

def StartupState.start (kernel : KernelMemory) : StartupState where
  lowerMemory := ⟨kernel,fun _ => none⟩
  stackWord _ := none
  lowWord _ := none
  cpuList := []
  noOfCpus := 0
  noOfActiveCpus := 0
  apStartupEvent := false
  bsp := .smpInit
  ap _ := .waitForSipi

def startupSystem (start : KernelMemory) : TransitionSystem StartupState StartupAction where
  init s := s = .start start
  step := startupStep c

/-- Other mappings leave the lower memory alone and need no table that is not planned for. -/
structure OtherPages (paths : Finset (List (Fin 512))) (baseAddress size : Nat) : Prop where
  range : PageRange baseAddress size
  tables : rangePaths baseAddress (size / pageSize) ⊆ paths
  apart : ∀ page ∈ lowerPages c.virtualToPhysicalOffset c.aps, ∀ k, k < size / pageSize →
    tableOffsets page ≠ tableOffsets (pageAt baseAddress k)

def LeavesLowerMemory (paths : Finset (List (Fin 512))) : StartupAction → Prop
  | .bsp | .ap _ => True
  | .mapMemory physicalAddress size baseAddress _ _ _ =>
    isAddressAligned physicalAddress pageSize = true ∧ OtherPages c paths baseAddress size
  | .unmapMemory virtualAddress size => OtherPages c paths virtualAddress size
  | .takeAddresses space =>
    ConfigPage paths c.virtualToPhysicalOffset space.freeVirtualAddressPointer

/-- What start-up relies on: a MADT that lists every processor once, the BSP among them; APs whose
stacks are below 64 KB, where the segment of the trampoline's stack starts at address `0`; room in
the pool and in the page of the configuration; and a stack of its own for each AP. -/
structure StartupReady (paths : Finset (List (Fin 512))) (start : KernelMemory) : Prop where
  madt : c.madt.Nodup
  bsp : c.bspApicId ∈ c.madt
  identifiers : ∀ apicId ∈ c.aps, apicId ≤ 12
  plan : LowerMemoryPlan paths c.virtualToPhysicalOffset c.aps
  config : ConfigPage paths c.virtualToPhysicalOffset start.space.freeVirtualAddressPointer
  highest : 0x2000 < c.highestPhysicalAddress ∧ c.highestPhysicalAddress < qwordModulus
  image : c.image.Fits
  root : start.pagingData.basePhysicalAddress ≤ maxDword
  tables : MapInv paths start.memory start.pagingData
  stack : ∀ apicId ∈ c.aps, c.stackTop apicId ≠ 0 ∧
    isAddressAligned (c.stackTop apicId) pageSize = true
  stack_injective : ∀ apicId ∈ c.aps, ∀ apicId' ∈ c.aps, c.stackTop apicId = c.stackTop apicId' →
    apicId = apicId'

end Steps

section Stacks

variable {c : StartupConfig} {stackWord stackWord' : Nat → Option StackWord} {apicId : Nat}

/-- The `PCPU` that the loop builds for an entry of the MADT. -/
def StartupConfig.pcpu (c : StartupConfig) (apicId : Nat) : Pcpu :=
  if apicId = c.bspApicId then ⟨apicId,true,c.stackTop apicId⟩
  else ⟨apicId,false,c.stackTop apicId - 0x60⟩

/-- The bytes below the top of a stack, on whose page the words are. -/
def StartupConfig.OnStack (c : StartupConfig) (apicId address : Nat) : Prop :=
  c.stackTop apicId - pageSize ≤ address ∧ address < c.stackTop apicId

theorem apReturns_congr {stackVirtualAddress : Nat}
    (hsame : ∀ address, stackVirtualAddress ≤ address → address < stackVirtualAddress + 0x60 →
      stackWord' address = stackWord address) :
    apReturns stackWord' stackVirtualAddress = apReturns stackWord stackVirtualAddress := by
  have h₀ := hsame stackVirtualAddress (by omega) (by omega)
  have h₁ := hsame (stackVirtualAddress + 8) (by omega) (by omega)
  have h₂ := hsame (stackVirtualAddress + 2 * 8 + 4 * 8) (by omega) (by omega)
  have h₃ := hsame (stackVirtualAddress + 2 * 8 + 4 * 8 + 2 * 8) (by omega) (by omega)
  simp only [apReturns,qwordSize,shadowStackSize,h₀,h₁,h₂,h₃]

theorem smpSetupInitialApStack_spec (stackWord : Nat → Option StackWord)
    (hzero : c.stackTop apicId ≠ 0)
    (haligned : isAddressAligned (c.stackTop apicId) pageSize = true) :
    ∃ stackWord', smpSetupInitialApStack stackWord (c.stackTop apicId) apicId =
        some (stackWord',c.stackTop apicId - 0x60) ∧
      apReturns stackWord' (c.stackTop apicId - 0x60) = some apicId ∧
      ∀ address, ¬c.OnStack apicId address → stackWord' address = stackWord address := by
  obtain ⟨base,hbase⟩ : ∃ base, c.stackTop apicId = base + 0x60 := by
    refine ⟨c.stackTop apicId - 0x60,?_⟩
    simp only [isAddressAligned,beq_iff_eq,pageSize] at haligned
    omega
  have hfirst : c.stackTop apicId - shadowStackSize - qwordSize - qwordSize = base + 0x30 := by
    simp only [hbase,shadowStackSize,qwordSize]
    omega
  have hsecond : base + 0x30 - shadowStackSize - qwordSize - qwordSize = base := by
    simp only [shadowStackSize,qwordSize]
    omega
  have hbottom : c.stackTop apicId - 0x60 = base := by omega
  refine ⟨writeStackWords (writeStackWords stackWord (base + 0x30)
    [.apInitCpu,.poison,.pcpu apicId]) base [.halActivateFpu,.apAsmStub],?_,?_,?_⟩
  · simp only [smpSetupInitialApStack,bne_iff_ne.mpr hzero,haligned,assert_true,hfirst,hsecond,
      hbottom,Option.bind_eq_bind,Option.bind_some,Option.pure_def]
  · rw [hbottom]
    simp [apReturns,writeStackWords,qwordSize,shadowStackSize,Nat.add_assoc]
  · intro address hout
    simp only [StartupConfig.OnStack,hbase,pageSize] at hout
    simp only [writeStackWords,qwordSize,Function.update_apply]
    repeat rw [if_neg (by omega)]

theorem onStack_disjoint {apicId' address : Nat}
    (haligned : isAddressAligned (c.stackTop apicId) pageSize = true)
    (haligned' : isAddressAligned (c.stackTop apicId') pageSize = true)
    (hne : c.stackTop apicId ≠ c.stackTop apicId') (hon : c.OnStack apicId address) :
    ¬c.OnStack apicId' address := by
  simp only [isAddressAligned,beq_iff_eq,StartupConfig.OnStack,pageSize] at *
  omega

theorem smpSetupCpus_spec {apicIds : List Nat} {s : CpuSetup} (hnodup : apicIds.Nodup)
    (hstack : ∀ apicId ∈ apicIds, apicId ≠ c.bspApicId →
      c.stackTop apicId ≠ 0 ∧ isAddressAligned (c.stackTop apicId) pageSize = true)
    (hinjective : ∀ apicId ∈ apicIds, apicId ≠ c.bspApicId → ∀ apicId' ∈ apicIds,
      apicId' ≠ c.bspApicId → c.stackTop apicId = c.stackTop apicId' → apicId = apicId') :
    ∃ stackWord, apicIds.foldlM (smpSetupCpu c) s =
        some ⟨stackWord,s.cpuList ++ apicIds.map c.pcpu,s.noOfCpus + apicIds.length⟩ ∧
      (∀ apicId ∈ apicIds, apicId ≠ c.bspApicId →
        apReturns stackWord (c.stackTop apicId - 0x60) = some apicId) ∧
      ∀ address, (∀ apicId ∈ apicIds, apicId ≠ c.bspApicId → ¬c.OnStack apicId address) →
        stackWord address = s.stackWord address := by
  induction apicIds generalizing s with
  | nil => exact ⟨s.stackWord,by simp,by simp,fun _ _ => rfl⟩
  | cons apicId apicIds ih =>
    obtain ⟨hnot,hnodup⟩ := List.nodup_cons.mp hnodup
    have hrest := fun apicId' hmem => hstack apicId' (List.mem_cons_of_mem apicId hmem)
    have hinjective' := fun apicId₁ hmem₁ hap₁ apicId₂ hmem₂ =>
      hinjective apicId₁ (List.mem_cons_of_mem apicId hmem₁) hap₁ apicId₂
        (List.mem_cons_of_mem apicId hmem₂)
    by_cases hbsp : apicId = c.bspApicId
    · obtain ⟨stackWord,hrun,hreturns,hothers⟩ :=
        ih (s := ⟨s.stackWord,s.cpuList ++ [c.pcpu apicId],s.noOfCpus + 1⟩) hnodup hrest hinjective'
      refine ⟨stackWord,?_,?_,?_⟩
      · have hhead : smpSetupCpu c s apicId =
            some ⟨s.stackWord,s.cpuList ++ [c.pcpu apicId],s.noOfCpus + 1⟩ := by
          rw [smpSetupCpu,if_pos hbsp,StartupConfig.pcpu,if_pos hbsp]
        rw [List.foldlM_cons,hhead]
        refine hrun.trans ?_
        simp [Nat.add_assoc,Nat.add_comm 1]
      · intro apicId' hmem hap
        cases hmem with
        | head => exact absurd hbsp hap
        | tail _ hmem => exact hreturns apicId' hmem hap
      · intro address hout
        apply hothers
        exact fun apicId' hmem => hout apicId' (List.mem_cons_of_mem _ hmem)
    · obtain ⟨hzero,haligned⟩ := hstack apicId List.mem_cons_self hbsp
      obtain ⟨stackWord₁,hsetup,hfirst,hframe⟩ :=
        smpSetupInitialApStack_spec s.stackWord hzero haligned
      obtain ⟨stackWord,hrun,hreturns,hothers⟩ :=
        ih (s := ⟨stackWord₁,s.cpuList ++ [c.pcpu apicId],s.noOfCpus + 1⟩) hnodup hrest hinjective'
      refine ⟨stackWord,?_,?_,?_⟩
      · have hhead : smpSetupCpu c s apicId =
            some ⟨stackWord₁,s.cpuList ++ [c.pcpu apicId],s.noOfCpus + 1⟩ := by
          rw [smpSetupCpu,if_neg hbsp,hsetup,StartupConfig.pcpu,if_neg hbsp]
          rfl
        rw [List.foldlM_cons,hhead]
        refine hrun.trans ?_
        simp [Nat.add_assoc,Nat.add_comm 1]
      · intro apicId' hmem hap
        cases hmem with
        | head =>
          rw [← hfirst]
          apply apReturns_congr
          intro address hlow hhigh
          apply hothers
          intro apicId' hmem' hap'
          apply onStack_disjoint haligned (hrest apicId' hmem' hap').2
          · intro heq
            rw [hinjective apicId List.mem_cons_self hbsp apicId' (List.mem_cons_of_mem _ hmem')
              hap' heq] at hnot
            exact hnot hmem'
          · simp only [isAddressAligned,beq_iff_eq,StartupConfig.OnStack,pageSize] at *
            omega
        | tail _ hmem => exact hreturns apicId' hmem hap
      · intro address hout
        rw [hothers address fun apicId' hmem => hout apicId' (List.mem_cons_of_mem _ hmem)]
        exact hframe address (hout apicId List.mem_cons_self hbsp)

theorem apicIds_pcpu (c : StartupConfig) : apicIds (c.madt.map c.pcpu) = c.aps := by
  rw [StartupConfig.aps]
  induction c.madt with
  | nil => rfl
  | cons apicId madt ih =>
    by_cases hbsp : apicId = c.bspApicId
    · rw [List.map_cons,apicIds_cons_bsp (by simp [StartupConfig.pcpu,hbsp]),ih]
      simp [hbsp]
    · rw [List.map_cons,apicIds_cons_ap (by simp [StartupConfig.pcpu,hbsp]),ih]
      simp [StartupConfig.pcpu,hbsp]

theorem StartupConfig.mem_aps (c : StartupConfig) :
    apicId ∈ c.aps ↔ apicId ∈ c.madt ∧ apicId ≠ c.bspApicId := by
  simp [StartupConfig.aps]

end Stacks

/-- What an AP has left for its 32-bit code. -/
structure TrampolineWords (lowWord : Nat → Option TrampolineWord) (apicId : Nat) : Prop where
  config : lowWord (apStackPhysicalAddress apicId - 24) =
    some (.transitionConfig (apStackPhysicalAddress apicId))
  returnAddress : lowWord (apStackPhysicalAddress apicId - 26) = some .returnAddress
  flags : lowWord (apStackPhysicalAddress apicId - 30) = some .flags

section Words

variable {lowWord lowWord' : Nat → Option TrampolineWord} {apicId : Nat}

theorem apStackPhysicalAddress_eq (apicId : Nat) :
    apStackPhysicalAddress apicId = 0x3000 + 0x1000 * apicId := rfl

theorem trampolineStackPointer_eq (hle : apicId ≤ 12) :
    trampolineStackPointer (apStackPhysicalAddress apicId) = apStackPhysicalAddress apicId - 24 := by
  simp only [trampolineStackPointer,transitionConfigSize,apStackPhysicalAddress_eq]
  omega

theorem trampolineStackSegment_eq (hle : apicId ≤ 12) :
    trampolineStackSegment (apStackPhysicalAddress apicId) = 0 := by
  simp only [trampolineStackSegment,apStackPhysicalAddress_eq]
  omega

theorem trampolineStart_eq (hle : apicId ≤ 12) : trampolineStart lowWord
    (apStackPhysicalAddress apicId) = Function.update (Function.update (Function.update lowWord
      (apStackPhysicalAddress apicId - 24)
        (some (.transitionConfig (apStackPhysicalAddress apicId))))
      (apStackPhysicalAddress apicId - 26) (some .returnAddress))
      (apStackPhysicalAddress apicId - 30) (some .flags) := by
  simp only [trampolineStart,trampolineStackPointer_eq hle,trampolineStackSegment_eq hle,
    realModeAddress,Nat.mul_zero,Nat.zero_add,Nat.sub_sub]

theorem TrampolineWords.start (hle : apicId ≤ 12) :
    TrampolineWords (trampolineStart lowWord (apStackPhysicalAddress apicId)) apicId := by
  rw [trampolineStart_eq hle]
  have hword := apStackPhysicalAddress_eq apicId
  constructor
  · rw [Function.update_of_ne (by omega),Function.update_of_ne (by omega),Function.update_self]
  · rw [Function.update_of_ne (by omega),Function.update_self]
  · rw [Function.update_self]

theorem TrampolineWords.kept (h : TrampolineWords lowWord apicId) {apicId' : Nat}
    (hle : apicId' ≤ 12) (hne : apicId ≠ apicId') :
    TrampolineWords (trampolineStart lowWord (apStackPhysicalAddress apicId')) apicId := by
  have hsame : ∀ address, address % 0x1000 = 0x1000 - 24 ∨ address % 0x1000 = 0x1000 - 26 ∨
      address % 0x1000 = 0x1000 - 30 → address / 0x1000 = apicId + 2 →
      trampolineStart lowWord (apStackPhysicalAddress apicId') address = lowWord address := by
    intro address _ hpage
    have hword := apStackPhysicalAddress_eq apicId'
    rw [trampolineStart_eq hle,Function.update_of_ne (by omega),Function.update_of_ne (by omega),
      Function.update_of_ne (by omega)]
  have hword := apStackPhysicalAddress_eq apicId
  constructor
  · rw [hsame _ (by omega) (by omega)]
    exact h.config
  · rw [hsame _ (by omega) (by omega)]
    exact h.returnAddress
  · rw [hsame _ (by omega) (by omega)]
    exact h.flags

theorem TrampolineWords.rm16ToPm32_eq (h : TrampolineWords lowWord apicId) (hle : apicId ≤ 12) :
    rm16ToPm32 lowWord (apStackPhysicalAddress apicId) = some (apStackPhysicalAddress apicId) := by
  have hword := apStackPhysicalAddress_eq apicId
  have hflags : apStackPhysicalAddress apicId - 24 - 6 = apStackPhysicalAddress apicId - 30 := by
    omega
  have hreturn : apStackPhysicalAddress apicId - 30 + 4 = apStackPhysicalAddress apicId - 26 := by
    omega
  have hconfig : apStackPhysicalAddress apicId - 30 + 6 = apStackPhysicalAddress apicId - 24 := by
    omega
  simp only [rm16ToPm32,trampolineStackPointer_eq hle,hflags,hreturn,hconfig,h.flags,h.returnAddress,
    h.config,BEq.rfl,assert_true,Option.bind_eq_bind,Option.bind_some]

/-- On its own, an AP comes back from the 16-bit code if and only if its identifier is at most `12`:
from there on it pops what it has not pushed. -/
theorem trampoline_returns_iff (hlt : apicId < 254) :
    (rm16ToPm32 (trampolineStart (fun _ => none) (apStackPhysicalAddress apicId))
      (apStackPhysicalAddress apicId)).isSome = true ↔ apicId ≤ 12 := by
  constructor
  · intro hsome
    by_contra hgt
    have hnone : trampolineStart (fun _ => none) (apStackPhysicalAddress apicId)
        (trampolineStackPointer (apStackPhysicalAddress apicId) - 6) ≠ some .flags := by
      have hword := apStackPhysicalAddress_eq apicId
      simp only [trampolineStart,trampolineStackPointer,trampolineStackSegment,realModeAddress,
        transitionConfigSize]
      rw [Function.update_of_ne (by omega)]
      by_cases hreturn : (apStackPhysicalAddress apicId + 2 ^ 16 - 24) % 2 ^ 16 - 6 =
          16 * (apStackPhysicalAddress apicId / 2 ^ 16 % 2 ^ 8 * 2 ^ 8) +
            ((apStackPhysicalAddress apicId + 2 ^ 16 - 24) % 2 ^ 16 - 2)
      · omega
      · rw [Function.update_of_ne hreturn,Function.update_of_ne (by omega)]
        simp
    simp [rm16ToPm32,assert,hnone] at hsome
  · intro hle
    rw [(TrampolineWords.start hle).rm16ToPm32_eq hle]
    rfl

end Words

def BspPc.arrival : BspPc → Arrival
  | .smpInit | .cpuMuInitCpu => .absent
  | .signalApStartupEvent => .signalling
  | _ => .arrived

def ApPc.arrival : ApPc → Arrival
  | .waitForSipi | .trampolineStart | .bits32 | .apInitCpu _ => .absent
  | .signalApStartupEvent _ => .signalling
  | .awake _ => .arrived

def ApPc.cpu : ApPc → Option Nat
  | .waitForSipi | .trampolineStart | .bits32 => none
  | .apInitCpu cpu | .signalApStartupEvent cpu | .awake cpu => some cpu

/-- Behind `SmpWakeupAps`. -/
def BspPc.pastWakeup : BspPc → Bool
  | .smpCleanupLowerMemory | .apsStarted => true
  | _ => false

/-- Before the lower memory is set up. -/
def BspPc.beforeSetup : BspPc → Bool
  | .smpInit | .cpuMuInitCpu | .signalApStartupEvent | .smpSetupLowerMemory => true
  | _ => false

def StartupState.arrival (c : StartupConfig) (s : StartupState) (apicId : Nat) : Arrival :=
  if apicId = c.bspApicId then s.bsp.arrival else (s.ap apicId).arrival

def StartupState.barrier (c : StartupConfig) (s : StartupState) : Barrier Nat where
  count := s.noOfActiveCpus
  arrival := s.arrival c
  signaled := s.apStartupEvent
  -- a BSP that is alone does not wait
  passed := s.bsp.pastWakeup && decide (1 < s.noOfCpus)

/-- What an AP finds. -/
structure StacksReady (c : StartupConfig) (s : StartupState) : Prop where
  list : apicIds s.cpuList = c.aps
  entry : ∀ apicId ∈ c.aps, ∃ stackVirtualAddress,
    s.lowerMemory.apConfig apicId =
      some ⟨apStackPhysicalAddress apicId,stackVirtualAddress⟩ ∧
    apReturns s.stackWord stackVirtualAddress = some apicId

inductive LowerStage (c : StartupConfig) (paths : Finset (List (Fin 512))) (s : StartupState) : Prop
  | before (hbsp : s.bsp.beforeSetup = true) (hlist : s.cpuList = [])
      (hconfig : ConfigPage paths c.virtualToPhysicalOffset
        s.lowerMemory.kernel.space.freeVirtualAddressPointer)
  | mapped (hbsp : s.bsp = .smpWakeupAps ∨ s.bsp = .waitForSignal ∨ s.bsp = .smpCleanupLowerMemory)
      (hready : StacksReady c s)
      (hmapped : LowerMemoryMapped s.lowerMemory.kernel c.virtualToPhysicalOffset c.aps)
  | unmapped (hbsp : s.bsp = .apsStarted) (hready : StacksReady c s)
      (hunmapped : ∀ page ∈ lowerPages c.virtualToPhysicalOffset c.aps,
        s.lowerMemory.kernel.leaf page = none)

structure StartupInv (c : StartupConfig) (paths : Finset (List (Fin 512))) (s : StartupState) :
    Prop where
  tables : MapInv paths s.lowerMemory.kernel.memory s.lowerMemory.kernel.pagingData
  root : s.lowerMemory.kernel.pagingData.basePhysicalAddress ≤ maxDword
  noOfCpus : s.bsp ≠ .smpInit → s.noOfCpus = c.madt.length
  waits : s.bsp = .waitForSignal → 1 < s.noOfCpus
  ap : ∀ apicId, s.ap apicId ≠ .waitForSipi → apicId ∈ c.aps ∧ s.bsp.sipiSent = true ∧
    ∀ cpu, (s.ap apicId).cpu = some cpu → cpu = apicId
  words : ∀ apicId, s.ap apicId = .bits32 → TrampolineWords s.lowWord apicId
  lower : LowerStage c paths s
  barrier : BarrierInv c.madt (s.barrier c)

section Invariant

variable {c : StartupConfig} {paths : Finset (List (Fin 512))} {start : KernelMemory}
  {s s' : StartupState} {apicId : Nat}

theorem arrival_setBsp (hap : s'.ap = s.ap) :
    s'.arrival c = Function.update (s.arrival c) c.bspApicId s'.bsp.arrival := by
  funext apicId
  by_cases hbsp : apicId = c.bspApicId
  · simp [StartupState.arrival,hbsp]
  · simp [StartupState.arrival,hbsp,hap]

theorem arrival_setAp {p : ApPc} (hne : apicId ≠ c.bspApicId) (hbsp : s'.bsp = s.bsp)
    (hap : s'.ap = Function.update s.ap apicId p) :
    s'.arrival c = Function.update (s.arrival c) apicId p.arrival := by
  funext apicId'
  by_cases hself : apicId' = apicId
  · simp [StartupState.arrival,hself,hne,hap]
  · by_cases hother : apicId' = c.bspApicId
    · simp [StartupState.arrival,hother,hbsp,Ne.symm hne]
    · simp [StartupState.arrival,hother,hself,hap]

theorem arrival_setBsp_same (hap : s'.ap = s.ap) (hbsp : s'.bsp.arrival = s.bsp.arrival) :
    s'.arrival c = s.arrival c := by
  rw [arrival_setBsp hap,hbsp,Function.update_eq_iff]
  simp [StartupState.arrival]

theorem arrival_setAp_same {p : ApPc} (hne : apicId ≠ c.bspApicId) (hbsp : s'.bsp = s.bsp)
    (hap : s'.ap = Function.update s.ap apicId p) (hpc : p.arrival = (s.ap apicId).arrival) :
    s'.arrival c = s.arrival c := by
  rw [arrival_setAp hne hbsp hap,hpc,Function.update_eq_iff]
  simp [StartupState.arrival,hne]

theorem LowerStage.ready (h : LowerStage c paths s) (hbsp : s.bsp.sipiSent = true) :
    StacksReady c s := by
  cases h with
  | before hbefore =>
    cases hpc : s.bsp <;> rw [hpc] at hbsp hbefore <;> simp [BspPc.sipiSent,BspPc.beforeSetup]
      at hbsp hbefore
  | mapped _ hready => exact hready
  | unmapped _ hready => exact hready

theorem LowerStage.same (h : LowerStage c paths s) (hbsp : s'.bsp = s.bsp)
    (hcpuList : s'.cpuList = s.cpuList) (hmemory : s'.lowerMemory = s.lowerMemory)
    (hwords : s'.stackWord = s.stackWord) : LowerStage c paths s' := by
  have hstacks : StacksReady c s → StacksReady c s' := by
    intro hready
    constructor
    · rw [hcpuList]
      exact hready.list
    · rw [hmemory,hwords]
      exact hready.entry
  cases h with
  | before hbefore hlist hconfig =>
    apply LowerStage.before
    · rwa [hbsp]
    · rwa [hcpuList]
    · rwa [hmemory]
  | mapped hmapping hready hmapped =>
    apply LowerStage.mapped
    · rwa [hbsp]
    · exact hstacks hready
    · rwa [hmemory]
  | unmapped hstarted hready hunmapped =>
    apply LowerStage.unmapped
    · rwa [hbsp]
    · exact hstacks hready
    · rwa [hmemory]

theorem LowerMemoryMapped.of_change {kernel kernel' : KernelMemory} {pages : Set Nat}
    {virtualToPhysicalOffset : Nat} {aps : List Nat}
    (h : LowerMemoryMapped kernel virtualToPhysicalOffset aps)
    (hchange : KernelChange paths pages kernel kernel')
    (hout : ∀ page ∈ lowerPages virtualToPhysicalOffset aps, ∀ other ∈ pages,
      tableOffsets page ≠ tableOffsets other) :
    LowerMemoryMapped kernel' virtualToPhysicalOffset aps where
  code := hchange.mapsPage h.code (hout _ List.mem_cons_self)
  high := hchange.mapsPage h.high (hout _ (List.mem_cons_of_mem _ List.mem_cons_self))
  stack apicId hmem := hchange.mapsPage (h.stack apicId hmem)
    (hout _ (List.mem_cons_of_mem _ (List.mem_cons_of_mem _ (List.mem_map_of_mem hmem))))

theorem StartupInv.setKernel (h : StartupInv c paths s) {kernel : KernelMemory} {pages : Set Nat}
    (hchange : KernelChange paths pages s.lowerMemory.kernel kernel)
    (hout : ∀ page ∈ lowerPages c.virtualToPhysicalOffset c.aps, ∀ other ∈ pages,
      tableOffsets page ≠ tableOffsets other)
    (hconfig : ConfigPage paths c.virtualToPhysicalOffset
        s.lowerMemory.kernel.space.freeVirtualAddressPointer →
      ConfigPage paths c.virtualToPhysicalOffset kernel.space.freeVirtualAddressPointer) :
    StartupInv c paths (s.setKernel kernel) := by
  refine ⟨hchange.inv,?_,h.noOfCpus,h.waits,h.ap,h.words,?_,h.barrier⟩
  · change kernel.pagingData.basePhysicalAddress ≤ maxDword
    rw [hchange.base_eq]
    exact h.root
  · cases h.lower with
    | before hbsp hlist hpage => exact .before hbsp hlist (hconfig hpage)
    | mapped hbsp hready hmapped =>
      exact .mapped hbsp ⟨hready.list,hready.entry⟩ (hmapped.of_change hchange hout)
    | unmapped hbsp hready hunmapped =>
      refine .unmapped hbsp ⟨hready.list,hready.entry⟩ ?_
      intro page hpage
      exact (hchange.others page (hout page hpage)).trans (hunmapped page hpage)

theorem StartupInv.moveBsp (h : StartupInv c paths s) (hmemory : s'.lowerMemory = s.lowerMemory)
    (hlowWord : s'.lowWord = s.lowWord) (hap : s'.ap = s.ap) (hnoOfCpus : s'.noOfCpus = c.madt.length)
    (hwaits : s'.bsp = .waitForSignal → 1 < s'.noOfCpus)
    (hsipi : s.bsp.sipiSent = true → s'.bsp.sipiSent = true) (hlower : LowerStage c paths s')
    (hbarrier : BarrierInv c.madt (s'.barrier c)) : StartupInv c paths s' where
  tables := by
    rw [hmemory]
    exact h.tables
  root := by
    rw [hmemory]
    exact h.root
  noOfCpus _ := hnoOfCpus
  waits := hwaits
  ap apicId hne := by
    rw [hap] at hne ⊢
    obtain ⟨hmem,hsent,hcpu⟩ := h.ap apicId hne
    exact ⟨hmem,hsipi hsent,hcpu⟩
  words apicId hpc := by
    rw [hap] at hpc
    rw [hlowWord]
    exact h.words apicId hpc
  lower := hlower
  barrier := hbarrier

theorem StartupInv.moveAp (h : StartupInv c paths s) (hmem : apicId ∈ c.aps)
    (hsent : s.bsp.sipiSent = true) {p : ApPc} (hcpu : ∀ cpu, p.cpu = some cpu → cpu = apicId)
    (hap : s'.ap = Function.update s.ap apicId p) (hbsp : s'.bsp = s.bsp)
    (hcpuList : s'.cpuList = s.cpuList) (hmemory : s'.lowerMemory = s.lowerMemory)
    (hwords : s'.stackWord = s.stackWord)
    (hlowWord : ∀ apicId', s'.ap apicId' = .bits32 → TrampolineWords s'.lowWord apicId')
    (hnoOfCpus : s'.noOfCpus = s.noOfCpus)
    (hbarrier : BarrierInv c.madt (s'.barrier c)) : StartupInv c paths s' where
  tables := by
    rw [hmemory]
    exact h.tables
  root := by
    rw [hmemory]
    exact h.root
  noOfCpus hne := by
    rw [hbsp] at hne
    rw [hnoOfCpus]
    exact h.noOfCpus hne
  waits hwait := by
    rw [hbsp] at hwait
    rw [hnoOfCpus]
    exact h.waits hwait
  ap apicId' hne := by
    rw [hbsp]
    by_cases hself : apicId' = apicId
    · rw [hself,hap,Function.update_self]
      exact ⟨hmem,hsent,hcpu⟩
    · rw [hap,Function.update_of_ne hself] at hne ⊢
      exact h.ap apicId' hne
  words := hlowWord
  lower := h.lower.same hbsp hcpuList hmemory hwords
  barrier := hbarrier

theorem StartupInv.words_kept (h : StartupInv c paths s) {p : ApPc}
    (hap : s'.ap = Function.update s.ap apicId p) (hpc : p ≠ .bits32)
    (hlowWord : s'.lowWord = s.lowWord) (apicId' : Nat) (hbits : s'.ap apicId' = .bits32) :
    TrampolineWords s'.lowWord apicId' := by
  rw [hlowWord]
  apply h.words
  rw [hap] at hbits
  by_cases hself : apicId' = apicId
  · rw [hself,Function.update_self] at hbits
    exact absurd hbits hpc
  · rwa [Function.update_of_ne hself] at hbits

theorem StartupInv.barrier_bsp (h : StartupInv c paths s) (hap : s'.ap = s.ap)
    (hcount : s'.noOfActiveCpus = s.noOfActiveCpus) (hevent : s'.apStartupEvent = s.apStartupEvent)
    (hbsp : s'.bsp.arrival = s.bsp.arrival)
    (hpast : (s'.bsp.pastWakeup && decide (1 < s'.noOfCpus)) =
      (s.bsp.pastWakeup && decide (1 < s.noOfCpus))) : BarrierInv c.madt (s'.barrier c) := by
  have hsame : s'.barrier c = s.barrier c := by
    simp only [StartupState.barrier,Barrier.mk.injEq]
    exact ⟨hcount,arrival_setBsp_same hap hbsp,hevent,hpast⟩
  rw [hsame]
  exact h.barrier

theorem StartupInv.barrier_ap (h : StartupInv c paths s) {p : ApPc} (hne : apicId ≠ c.bspApicId)
    (hap : s'.ap = Function.update s.ap apicId p) (hpc : p.arrival = (s.ap apicId).arrival)
    (hcount : s'.noOfActiveCpus = s.noOfActiveCpus) (hevent : s'.apStartupEvent = s.apStartupEvent)
    (hbsp : s'.bsp = s.bsp) (hcpus : s'.noOfCpus = s.noOfCpus) :
    BarrierInv c.madt (s'.barrier c) := by
  have hsame : s'.barrier c = s.barrier c := by
    simp only [StartupState.barrier,Barrier.mk.injEq,hbsp,hcpus,and_true]
    exact ⟨hcount,arrival_setAp_same hne hbsp hap hpc,hevent⟩
  rw [hsame]
  exact h.barrier

/-- How many steps the BSP has left. -/
def BspPc.left : BspPc → Nat
  | .smpInit => 7
  | .cpuMuInitCpu => 6
  | .signalApStartupEvent => 5
  | .smpSetupLowerMemory => 4
  | .smpWakeupAps => 3
  | .waitForSignal => 2
  | .smpCleanupLowerMemory => 1
  | .apsStarted | .failed => 0

theorem LowerStage.early (h : LowerStage c paths s) (hbsp : s.bsp.beforeSetup = true) :
    s.cpuList = [] ∧ ConfigPage paths c.virtualToPhysicalOffset
      s.lowerMemory.kernel.space.freeVirtualAddressPointer := by
  cases h with
  | before _ hlist hconfig => exact ⟨hlist,hconfig⟩
  | mapped hpc =>
    rcases hpc with hpc | hpc | hpc <;> rw [hpc] at hbsp <;> cases hbsp
  | unmapped hpc =>
    rw [hpc] at hbsp
    cases hbsp

theorem LowerStage.late (h : LowerStage c paths s)
    (hbsp : s.bsp = .smpWakeupAps ∨ s.bsp = .waitForSignal ∨ s.bsp = .smpCleanupLowerMemory) :
    StacksReady c s ∧
      LowerMemoryMapped s.lowerMemory.kernel c.virtualToPhysicalOffset c.aps := by
  cases h with
  | before hbefore =>
    rcases hbsp with hpc | hpc | hpc <;> rw [hpc] at hbefore <;> cases hbefore
  | mapped _ hready hmapped => exact ⟨hready,hmapped⟩
  | unmapped hpc =>
    rw [hpc] at hbsp
    simp at hbsp

/-- A step of the BSP. -/
structure BspAdvances (c : StartupConfig) (paths : Finset (List (Fin 512)))
    (s s' : StartupState) : Prop where
  step : bspStep c s = some s'
  inv : StartupInv c paths s'
  ap : s'.ap = s.ap
  left : s'.bsp.left < s.bsp.left

theorem StartupInv.smpSetupLowerMemory (hready : StartupReady c paths start)
    (h : StartupInv c paths s) (hbsp : s.bsp = .smpSetupLowerMemory) :
    ∃ s', BspAdvances c paths s s' := by
  obtain ⟨hlist,hconfig⟩ := h.lower.early (by rw [hbsp]; rfl)
  have hcount := h.noOfCpus (by simp [hbsp])
  obtain ⟨stackWord,hsetup,hreturns,_⟩ := smpSetupCpus_spec (c := c)
    (s := ⟨s.stackWord,s.cpuList,0⟩) hready.madt
    (fun apicId hmem hap => hready.stack apicId (c.mem_aps.mpr ⟨hmem,hap⟩))
    (fun apicId hmem hap apicId' hmem' hap' => hready.stack_injective apicId
      (c.mem_aps.mpr ⟨hmem,hap⟩) apicId' (c.mem_aps.mpr ⟨hmem',hap'⟩))
  rw [hlist,List.nil_append,Nat.zero_add] at hsetup
  have hplan := hready.plan
  rw [← apicIds_pcpu c] at hplan
  obtain ⟨m,hmap,hchange,hmapped,hentry⟩ := apTrampSetupLowerMemory_spec (m := s.lowerMemory)
    c.vmmData hplan hconfig hready.highest hready.image h.root h.tables
  rw [apicIds_pcpu] at hmapped
  refine ⟨{ s with
    lowerMemory := m
    stackWord
    cpuList := c.madt.map c.pcpu
    bsp := .smpWakeupAps },?_,?_,rfl,by simp [hbsp,BspPc.left]⟩
  · have hsame : (s.noOfCpus == c.madt.length) = true := by simp [hcount]
    simp only [bspStep,hbsp,hlist,hsetup,hmap,hsame,assert_true,Option.bind_eq_bind,
      Option.bind_some,if_true,Option.pure_def]
  · refine ⟨hchange.inv,?_,fun _ => hcount,?_,?_,h.words,?_,?_⟩
    · change m.kernel.pagingData.basePhysicalAddress ≤ maxDword
      rw [hchange.base_eq]
      exact h.root
    · simp
    · intro apicId hne
      have hsent := (h.ap apicId hne).2.1
      rw [hbsp] at hsent
      cases hsent
    · refine .mapped (Or.inl rfl) ⟨apicIds_pcpu c,?_⟩ hmapped
      intro apicId hmem
      obtain ⟨hin,hap⟩ := c.mem_aps.mp hmem
      have hcpu : c.pcpu apicId = ⟨apicId,false,c.stackTop apicId - 0x60⟩ := if_neg hap
      have hconfigured := hentry (c.pcpu apicId) (List.mem_map_of_mem hin) (by rw [hcpu])
      rw [hcpu] at hconfigured
      exact ⟨_,hconfigured,hreturns apicId hin hap⟩
    · exact h.barrier_bsp rfl rfl rfl (by rw [hbsp]; rfl) (by rw [hbsp]; rfl)

theorem StartupInv.smpCleanupLowerMemory (hready : StartupReady c paths start)
    (h : StartupInv c paths s) (hbsp : s.bsp = .smpCleanupLowerMemory) :
    ∃ s', BspAdvances c paths s s' := by
  obtain ⟨hstacks,_⟩ := h.lower.late (Or.inr (Or.inr hbsp))
  have hplan := hready.plan
  rw [← hstacks.list] at hplan
  obtain ⟨kernel,hunmap,hchange,hunmapped⟩ := apTrampCleanupLowerMemory_spec hplan h.tables
  rw [hstacks.list] at hunmapped
  refine ⟨{ s with lowerMemory := { s.lowerMemory with kernel }, bsp := .apsStarted },?_,?_,rfl,
    by simp [hbsp,BspPc.left]⟩
  · simp only [bspStep,hbsp,hunmap,Option.bind_eq_bind,Option.bind_some,Option.pure_def]
  · refine ⟨hchange.inv,?_,fun _ => h.noOfCpus (by simp [hbsp]),?_,?_,h.words,?_,?_⟩
    · change kernel.pagingData.basePhysicalAddress ≤ maxDword
      rw [hchange.base_eq]
      exact h.root
    · simp
    · intro apicId hne
      obtain ⟨hmem,_,hcpu⟩ := h.ap apicId hne
      exact ⟨hmem,rfl,hcpu⟩
    · exact .unmapped rfl ⟨hstacks.list,hstacks.entry⟩ hunmapped
    · exact h.barrier_bsp rfl rfl rfl (by rw [hbsp]; rfl) (by rw [hbsp]; rfl)

theorem StartupInv.smpInit (h : StartupInv c paths s) (hbsp : s.bsp = .smpInit) :
    ∃ s', BspAdvances c paths s s' := by
  obtain ⟨hlist,hconfig⟩ := h.lower.early (by rw [hbsp]; rfl)
  refine ⟨{ s with noOfCpus := c.madt.length, bsp := .cpuMuInitCpu },
    by simp only [bspStep,hbsp],?_,rfl,by simp [hbsp,BspPc.left]⟩
  apply h.moveBsp
  · rfl
  · rfl
  · rfl
  · rfl
  · simp
  · simp [hbsp,BspPc.sipiSent]
  · exact .before rfl hlist hconfig
  · exact h.barrier_bsp rfl rfl rfl (by rw [hbsp]; rfl) (by rw [hbsp]; rfl)

theorem StartupInv.cpuMuInitCpu (h : StartupInv c paths s) (hmadt : c.bspApicId ∈ c.madt)
    (hbsp : s.bsp = .cpuMuInitCpu) : ∃ s', BspAdvances c paths s s' := by
  obtain ⟨hlist,hconfig⟩ := h.lower.early (by rw [hbsp]; rfl)
  have hcount := h.noOfCpus (by simp [hbsp])
  refine ⟨{ s with
    noOfActiveCpus := s.noOfActiveCpus + 1
    bsp := if s.noOfActiveCpus + 1 = s.noOfCpus then .signalApStartupEvent
      else .smpSetupLowerMemory },by simp only [bspStep,hbsp],?_,rfl,
    by dsimp only; split <;> simp [hbsp,BspPc.left]⟩
  have hbarrier := h.barrier.arrive hmadt
    (by simp [StartupState.barrier,StartupState.arrival,hbsp,BspPc.arrival])
  have hnext : StartupState.barrier c { s with
      noOfActiveCpus := s.noOfActiveCpus + 1
      bsp := if s.noOfActiveCpus + 1 = s.noOfCpus then .signalApStartupEvent
        else .smpSetupLowerMemory } = { s.barrier c with
      count := (s.barrier c).count + 1
      arrival := Function.update (s.barrier c).arrival c.bspApicId
        (if (s.barrier c).count + 1 = c.madt.length then .signalling else .arrived) } := by
    simp only [StartupState.barrier,Barrier.mk.injEq,true_and]
    refine ⟨(arrival_setBsp (s := s) (by rfl)).trans ?_,?_⟩
    · dsimp only
      rw [hcount,apply_ite BspPc.arrival]
      rfl
    · rw [hbsp]
      split <;> rfl
  rw [← hnext] at hbarrier
  apply h.moveBsp
  · rfl
  · rfl
  · rfl
  · exact hcount
  · dsimp only
    split <;> simp
  · simp [hbsp,BspPc.sipiSent]
  · refine .before ?_ hlist hconfig
    dsimp only
    split <;> rfl
  · exact hbarrier

theorem StartupInv.signalApStartupEvent (h : StartupInv c paths s)
    (hbsp : s.bsp = .signalApStartupEvent) : ∃ s', BspAdvances c paths s s' := by
  obtain ⟨hlist,hconfig⟩ := h.lower.early (by rw [hbsp]; rfl)
  refine ⟨{ s with apStartupEvent := true, bsp := .smpSetupLowerMemory },
    by simp only [bspStep,hbsp],?_,rfl,by simp [hbsp,BspPc.left]⟩
  have hbarrier := h.barrier.signal (m := c.bspApicId)
    (by simp [StartupState.barrier,StartupState.arrival,hbsp,BspPc.arrival])
  have hnext : StartupState.barrier c { s with
      apStartupEvent := true, bsp := .smpSetupLowerMemory } = { s.barrier c with
      signaled := true
      arrival := Function.update (s.barrier c).arrival c.bspApicId .arrived } := by
    simp only [StartupState.barrier,Barrier.mk.injEq,true_and]
    refine ⟨arrival_setBsp (s := s) rfl,?_⟩
    rw [hbsp]
    rfl
  rw [← hnext] at hbarrier
  apply h.moveBsp
  · rfl
  · rfl
  · rfl
  · exact h.noOfCpus (by simp [hbsp])
  · simp
  · simp [hbsp,BspPc.sipiSent]
  · exact .before rfl hlist hconfig
  · exact hbarrier

theorem StartupInv.smpWakeupAps (h : StartupInv c paths s) (hbsp : s.bsp = .smpWakeupAps) :
    ∃ s', BspAdvances c paths s s' := by
  obtain ⟨hstacks,hmapped⟩ := h.lower.late (Or.inl hbsp)
  refine ⟨{ s with bsp := if 1 < s.noOfCpus then .waitForSignal else .smpCleanupLowerMemory },
    by simp only [bspStep,hbsp],?_,rfl,by dsimp only; split <;> simp [hbsp,BspPc.left]⟩
  apply h.moveBsp
  · rfl
  · rfl
  · rfl
  · exact h.noOfCpus (by simp [hbsp])
  · dsimp only
    split
    · simp [*]
    · simp
  · simp [hbsp,BspPc.sipiSent]
  · refine .mapped ?_ ⟨hstacks.list,hstacks.entry⟩ hmapped
    dsimp only
    split <;> simp
  · refine h.barrier_bsp rfl rfl rfl ?_ ?_
    · rw [hbsp]
      dsimp only
      split <;> rfl
    · rw [hbsp]
      split <;> simp [*,BspPc.pastWakeup]

theorem StartupInv.waitForSignal (h : StartupInv c paths s) (hbsp : s.bsp = .waitForSignal)
    (hevent : s.apStartupEvent = true) : ∃ s', BspAdvances c paths s s' := by
  obtain ⟨hstacks,hmapped⟩ := h.lower.late (Or.inr (Or.inl hbsp))
  refine ⟨{ s with apStartupEvent := false, bsp := .smpCleanupLowerMemory },
    by simp only [bspStep,hbsp,hevent,if_true],?_,rfl,by simp [hbsp,BspPc.left]⟩
  have hbarrier := h.barrier.pass hevent
  have hnext : StartupState.barrier c { s with
      apStartupEvent := false, bsp := .smpCleanupLowerMemory } = { s.barrier c with
      signaled := false, passed := true } := by
    simp only [StartupState.barrier,Barrier.mk.injEq,true_and]
    refine ⟨arrival_setBsp_same rfl (by rw [hbsp]; rfl),?_⟩
    simpa [BspPc.pastWakeup] using h.waits hbsp
  rw [← hnext] at hbarrier
  apply h.moveBsp
  · rfl
  · rfl
  · rfl
  · exact h.noOfCpus (by simp [hbsp])
  · simp
  · simp [BspPc.sipiSent]
  · exact .mapped (Or.inr (Or.inr rfl)) ⟨hstacks.list,hstacks.entry⟩ hmapped
  · exact hbarrier

/-- The BSP never halts, and waits only for the event. -/
theorem StartupInv.bsp_step (hready : StartupReady c paths start) (h : StartupInv c paths s)
    (hne : s.bsp ≠ .apsStarted) (hwait : s.bsp = .waitForSignal → s.apStartupEvent = true) :
    ∃ s', BspAdvances c paths s s' := by
  cases hbsp : s.bsp with
  | smpInit => exact h.smpInit hbsp
  | cpuMuInitCpu => exact h.cpuMuInitCpu hready.bsp hbsp
  | signalApStartupEvent => exact h.signalApStartupEvent hbsp
  | smpSetupLowerMemory => exact h.smpSetupLowerMemory hready hbsp
  | smpWakeupAps => exact h.smpWakeupAps hbsp
  | waitForSignal => exact h.waitForSignal hbsp (hwait hbsp)
  | smpCleanupLowerMemory => exact h.smpCleanupLowerMemory hready hbsp
  | apsStarted => exact absurd hbsp hne
  | failed =>
    cases h.lower with
    | before hbefore =>
      rw [hbsp] at hbefore
      cases hbefore
    | mapped hpc | unmapped hpc =>
      rw [hbsp] at hpc
      simp at hpc

def ApPc.left : ApPc → Nat
  | .waitForSipi => 5
  | .trampolineStart => 4
  | .bits32 => 3
  | .apInitCpu _ => 2
  | .signalApStartupEvent _ => 1
  | .awake _ => 0

theorem StartupInv.all_awake (h : StartupInv c paths s) (hbsp : c.bspApicId ∈ c.madt)
    (hpast : s.bsp.pastWakeup = true) : ∀ apicId ∈ c.aps, s.ap apicId = .awake apicId := by
  intro apicId hmem
  obtain ⟨hin,hap⟩ := c.mem_aps.mp hmem
  have hcount := h.noOfCpus (by
    intro hinit
    rw [hinit] at hpast
    cases hpast)
  have hmany : 1 < s.noOfCpus := by
    rw [hcount]
    apply (Finset.one_lt_card.mpr ⟨apicId,?_,c.bspApicId,?_,hap⟩).trans_le
      (List.toFinset_card_le c.madt)
    · simpa using hin
    · simpa using hbsp
  have harrived := h.barrier.all_arrived (Or.inr (by simp [StartupState.barrier,hpast,hmany]))
    apicId hin
  simp only [StartupState.barrier,StartupState.arrival,if_neg hap] at harrived
  cases hpc : s.ap apicId with
  | awake cpu =>
    rw [(h.ap apicId (by simp [hpc])).2.2 cpu (by rw [hpc]; rfl)]
  | waitForSipi | trampolineStart | bits32 | apInitCpu cpu | signalApStartupEvent cpu =>
    rw [hpc] at harrived
    cases harrived

theorem reaches_of_mapsPage {kernel : KernelMemory} {page : Nat} {rights : PageRights}
    (h : kernel.MapsPage page page rights) :
    kernel.reaches page PtEntry.executable = rights.execute ∧
      kernel.reaches page PtEntry.writable = rights.write ∧
      kernel.reaches page (fun _ => true) = true := by
  obtain ⟨entry,hleaf,hphysical,hwrite,hexecute⟩ := h
  simp [KernelMemory.reaches,hleaf,hphysical,hwrite,hexecute]

theorem StartupInv.trampoline (h : StartupInv c paths s) (hbsp : c.bspApicId ∈ c.madt)
    (hpc : s.ap apicId = .trampolineStart ∨ s.ap apicId = .bits32) :
    apicId ∈ c.aps ∧ s.bsp.sipiSent = true ∧ StacksReady c s ∧
      LowerMemoryMapped s.lowerMemory.kernel c.virtualToPhysicalOffset c.aps := by
  have hne : s.ap apicId ≠ .waitForSipi := by rcases hpc with hpc | hpc <;> simp [hpc]
  obtain ⟨hmem,hsent,_⟩ := h.ap apicId hne
  have hwait : s.bsp = .waitForSignal := by
    have hnotPast : s.bsp.pastWakeup = false := by
      rw [Bool.eq_false_iff]
      intro hpast
      have hawake := h.all_awake hbsp hpast apicId hmem
      rcases hpc with hpc | hpc <;> rw [hpc] at hawake <;> cases hawake
    cases hcase : s.bsp <;> rw [hcase] at hsent hnotPast <;>
      simp [BspPc.sipiSent,BspPc.pastWakeup] at hsent hnotPast ⊢
  exact ⟨hmem,hsent,h.lower.late (Or.inr (Or.inl hwait))⟩

theorem StartupInv.trampolineStart_step (h : StartupInv c paths s) (hbsp : c.bspApicId ∈ c.madt)
    (hpc : s.ap apicId = .trampolineStart) : apStep c s apicId = some { s with
      lowWord := trampolineStart s.lowWord (apStackPhysicalAddress apicId)
      ap := Function.update s.ap apicId .bits32 } := by
  obtain ⟨hmem,_,hstacks,_⟩ := h.trampoline hbsp (Or.inl hpc)
  obtain ⟨stackVirtualAddress,hentry,_⟩ := hstacks.entry apicId hmem
  simp only [apStep,hmem,hpc,hentry,if_true,Option.bind_eq_bind,Option.bind_some,Option.pure_def]

/-- The code can run exactly if no stack lies on its page. -/
theorem StartupInv.bits32_step (h : StartupInv c paths s) (hbsp : c.bspApicId ∈ c.madt)
    (hle : ∀ apicId ∈ c.aps, apicId ≤ 12) (hpc : s.ap apicId = .bits32) : apStep c s apicId =
      if 0 ∈ c.aps then none
      else some { s with ap := Function.update s.ap apicId (.apInitCpu apicId) } := by
  obtain ⟨hmem,_,hstacks,hmapped⟩ := h.trampoline hbsp (Or.inr hpc)
  obtain ⟨stackVirtualAddress,hentry,hreturns⟩ := hstacks.entry apicId hmem
  have hcode := (reaches_of_mapsPage hmapped.code).1
  obtain ⟨_,hstack,hpresent⟩ := reaches_of_mapsPage (hmapped.stack apicId hmem)
  have hpage : apStackPhysicalAddress apicId - lowMemoryStackSize = apStackPage apicId := rfl
  have hwords := (h.words apicId hpc).rm16ToPm32_eq (hle apicId hmem)
  simp only [apStep,hmem,hpc,hentry,hwords,hcode,hpage,hstack,hpresent,hreturns,if_true,
    Option.bind_eq_bind,Option.bind_some]
  by_cases hzero : 0 ∈ c.aps
  · simp [hzero,pageRightsReadWrite,assert]
  · simp [hzero,pageRightsReadWrite,pageRightsAll,assert]

/-- A step of an AP. -/
structure ApAdvances (c : StartupConfig) (paths : Finset (List (Fin 512))) (apicId : Nat)
    (s s' : StartupState) : Prop where
  inv : StartupInv c paths s'
  bsp : s'.bsp = s.bsp
  mem : apicId ∈ c.aps
  left : ∃ pc, s'.ap = Function.update s.ap apicId pc ∧ pc.left < (s.ap apicId).left

theorem StartupInv.waitForSipi (h : StartupInv c paths s) (hmem : apicId ∈ c.aps)
    (hpc : s.ap apicId = .waitForSipi) (hstep : apStep c s apicId = some s') :
    ApAdvances c paths apicId s s' := by
  simp only [apStep,hmem,hpc,if_true] at hstep
  split at hstep
  · rename_i hsent
    obtain rfl := Option.some.inj hstep
    refine ⟨?_,rfl,hmem,_,rfl,by simp [hpc,ApPc.left]⟩
    apply h.moveAp hmem hsent (p := .trampolineStart)
    · simp [ApPc.cpu]
    · rfl
    · rfl
    · rfl
    · rfl
    · rfl
    · exact h.words_kept rfl (by simp) rfl
    · rfl
    · exact h.barrier_ap (c.mem_aps.mp hmem).2 rfl (by rw [hpc]; rfl) rfl rfl rfl rfl
  · cases hstep

theorem StartupInv.trampolineStart (h : StartupInv c paths s) (hbsp : c.bspApicId ∈ c.madt)
    (hle : ∀ apicId ∈ c.aps, apicId ≤ 12) (hpc : s.ap apicId = .trampolineStart)
    (hstep : apStep c s apicId = some s') : ApAdvances c paths apicId s s' := by
  obtain ⟨hmem,hsent,_⟩ := h.trampoline hbsp (Or.inl hpc)
  rw [h.trampolineStart_step hbsp hpc] at hstep
  obtain rfl := Option.some.inj hstep
  refine ⟨?_,rfl,hmem,_,rfl,by simp [hpc,ApPc.left]⟩
  apply h.moveAp hmem hsent (p := .bits32)
  · simp [ApPc.cpu]
  · rfl
  · rfl
  · rfl
  · rfl
  · rfl
  · intro apicId' hbits
    dsimp only at hbits ⊢
    by_cases hself : apicId' = apicId
    · rw [hself]
      exact .start (hle apicId hmem)
    · rw [Function.update_of_ne hself] at hbits
      exact (h.words apicId' hbits).kept (hle apicId hmem) hself
  · rfl
  · exact h.barrier_ap (c.mem_aps.mp hmem).2 rfl (by rw [hpc]; rfl) rfl rfl rfl rfl

theorem StartupInv.bits32 (h : StartupInv c paths s) (hbsp : c.bspApicId ∈ c.madt)
    (hle : ∀ apicId ∈ c.aps, apicId ≤ 12) (hpc : s.ap apicId = .bits32)
    (hstep : apStep c s apicId = some s') : ApAdvances c paths apicId s s' := by
  obtain ⟨hmem,hsent,_⟩ := h.trampoline hbsp (Or.inr hpc)
  rw [h.bits32_step hbsp hle hpc] at hstep
  split at hstep
  · cases hstep
  · obtain rfl := Option.some.inj hstep
    refine ⟨?_,rfl,hmem,_,rfl,by simp [hpc,ApPc.left]⟩
    apply h.moveAp hmem hsent (p := .apInitCpu apicId)
    · simp [ApPc.cpu]
    · rfl
    · rfl
    · rfl
    · rfl
    · rfl
    · exact h.words_kept rfl (by simp) rfl
    · rfl
    · exact h.barrier_ap (c.mem_aps.mp hmem).2 rfl (by rw [hpc]; rfl) rfl rfl rfl rfl

theorem StartupInv.apInitCpu (h : StartupInv c paths s) (hmem : apicId ∈ c.aps) {cpu : Nat}
    (hpc : s.ap apicId = .apInitCpu cpu) (hstep : apStep c s apicId = some s') :
    ApAdvances c paths apicId s s' := by
  obtain ⟨hin,hap⟩ := c.mem_aps.mp hmem
  obtain ⟨_,hsent,hcpu⟩ := h.ap apicId (by simp [hpc])
  have hcount := h.noOfCpus (by
    intro hinit
    rw [hinit] at hsent
    cases hsent)
  simp only [apStep,hmem,hpc,if_true] at hstep
  obtain rfl := Option.some.inj hstep
  refine ⟨?_,rfl,hmem,_,rfl,by split <;> simp [hpc,ApPc.left]⟩
  have hbarrier := h.barrier.arrive hin
    (by simp [StartupState.barrier,StartupState.arrival,hap,hpc,ApPc.arrival])
  have hnext : StartupState.barrier c { s with
      noOfActiveCpus := s.noOfActiveCpus + 1
      ap := Function.update s.ap apicId
        (if s.noOfActiveCpus + 1 = s.noOfCpus then .signalApStartupEvent cpu
          else .awake cpu) } = { s.barrier c with
      count := (s.barrier c).count + 1
      arrival := Function.update (s.barrier c).arrival apicId
        (if (s.barrier c).count + 1 = c.madt.length then .signalling else .arrived) } := by
    simp only [StartupState.barrier,Barrier.mk.injEq,true_and,and_true]
    refine Eq.trans (arrival_setAp (s := s) hap (by rfl) (by rfl)) ?_
    rw [hcount,apply_ite ApPc.arrival]
    rfl
  rw [← hnext] at hbarrier
  apply h.moveAp hmem hsent
    (p := if s.noOfActiveCpus + 1 = s.noOfCpus then .signalApStartupEvent cpu else .awake cpu)
  · rw [hpc] at hcpu
    split <;> exact hcpu
  · rfl
  · rfl
  · rfl
  · rfl
  · rfl
  · exact h.words_kept rfl (by split <;> simp) rfl
  · rfl
  · exact hbarrier

theorem StartupInv.ap_signalApStartupEvent (h : StartupInv c paths s) (hmem : apicId ∈ c.aps)
    {cpu : Nat} (hpc : s.ap apicId = .signalApStartupEvent cpu)
    (hstep : apStep c s apicId = some s') : ApAdvances c paths apicId s s' := by
  obtain ⟨_,hap⟩ := c.mem_aps.mp hmem
  obtain ⟨_,hsent,hcpu⟩ := h.ap apicId (by simp [hpc])
  rw [hpc] at hcpu
  simp only [apStep,hmem,hpc,if_true] at hstep
  obtain rfl := Option.some.inj hstep
  refine ⟨?_,rfl,hmem,_,rfl,by simp [hpc,ApPc.left]⟩
  have hbarrier := h.barrier.signal (m := apicId)
    (by simp [StartupState.barrier,StartupState.arrival,hap,hpc,ApPc.arrival])
  have hnext : StartupState.barrier c { s with
      apStartupEvent := true
      ap := Function.update s.ap apicId (.awake cpu) } = { s.barrier c with
      signaled := true
      arrival := Function.update (s.barrier c).arrival apicId .arrived } := by
    simp only [StartupState.barrier,Barrier.mk.injEq,true_and,and_true]
    exact arrival_setAp (s := s) (p := .awake cpu) hap rfl rfl
  rw [← hnext] at hbarrier
  apply h.moveAp hmem hsent (p := .awake cpu) hcpu
  · rfl
  · rfl
  · rfl
  · rfl
  · rfl
  · exact h.words_kept rfl (by simp) rfl
  · rfl
  · exact hbarrier

theorem StartupInv.ap_step (h : StartupInv c paths s) (hbsp : c.bspApicId ∈ c.madt)
    (hle : ∀ apicId ∈ c.aps, apicId ≤ 12) (hstep : apStep c s apicId = some s') :
    ApAdvances c paths apicId s s' := by
  have hmem : apicId ∈ c.aps := by
    by_contra hnot
    simp [apStep,hnot] at hstep
  cases hpc : s.ap apicId with
  | waitForSipi => exact h.waitForSipi hmem hpc hstep
  | trampolineStart => exact h.trampolineStart hbsp hle hpc hstep
  | bits32 => exact h.bits32 hbsp hle hpc hstep
  | apInitCpu cpu => exact h.apInitCpu hmem hpc hstep
  | signalApStartupEvent cpu => exact h.ap_signalApStartupEvent hmem hpc hstep
  | awake cpu => simp [apStep,hmem,hpc] at hstep

theorem StartupInv.ap_enabled (h : StartupInv c paths s) (hbsp : c.bspApicId ∈ c.madt)
    (hle : ∀ apicId ∈ c.aps, apicId ≤ 12) (hmem : apicId ∈ c.aps)
    (hsent : s.bsp.sipiSent = true) (hzero : 0 ∉ c.aps)
    (harrival : (s.ap apicId).arrival ≠ .arrived) : ∃ s', apStep c s apicId = some s' := by
  cases hpc : s.ap apicId with
  | waitForSipi => simp [apStep,hmem,hpc,hsent]
  | trampolineStart => exact ⟨_,h.trampolineStart_step hbsp hpc⟩
  | bits32 =>
    rw [h.bits32_step hbsp hle hpc,if_neg hzero]
    exact ⟨_,rfl⟩
  | apInitCpu cpu => simp [apStep,hmem,hpc]
  | signalApStartupEvent cpu => simp [apStep,hmem,hpc]
  | awake cpu =>
    rw [hpc] at harrival
    exact absurd rfl harrival

theorem StartupInv.init (hready : StartupReady c paths start) :
    StartupInv c paths (.start start) where
  tables := hready.tables
  root := hready.root
  noOfCpus hne := absurd rfl hne
  waits hwait := by cases hwait
  ap apicId hne := absurd rfl hne
  words apicId hpc := by cases hpc
  lower := .before rfl rfl hready.config
  barrier := by
    have hinit := BarrierInv.init (List.ne_nil_of_mem hready.bsp)
    have hsame : StartupState.barrier c (.start start) = ⟨0,fun _ => .absent,false,false⟩ := by
      simp only [StartupState.barrier,StartupState.start,Barrier.mk.injEq,true_and]
      refine ⟨?_,rfl⟩
      funext apicId
      simp [StartupState.arrival,BspPc.arrival,ApPc.arrival]
    rw [hsame]
    exact hinit

/-- The pages of a range. -/
def pagesOfRange (baseAddress size : Nat) : Set Nat :=
  {page | ∃ k, k < size / pageSize ∧ pageAt baseAddress k = page}

theorem OtherPages.out {baseAddress size : Nat} (h : OtherPages c paths baseAddress size) :
    ∀ page ∈ lowerPages c.virtualToPhysicalOffset c.aps, ∀ other ∈ pagesOfRange baseAddress size,
      tableOffsets page ≠ tableOffsets other := by
  intro page hpage other hother
  obtain ⟨k,hk,hother⟩ := hother
  rw [← hother]
  exact h.apart page hpage k hk

theorem StartupInv.step (hready : StartupReady c paths start) (h : StartupInv c paths s)
    {action : StartupAction} (hguard : LeavesLowerMemory c paths action)
    (hstep : startupStep c s action = some s') : StartupInv c paths s' := by
  have hpaths := hready.plan.lengths
  cases action with
  | bsp =>
    have hne : s.bsp ≠ .apsStarted := by
      intro hbsp
      simp [startupStep,bspStep,hbsp] at hstep
    have hwait : s.bsp = .waitForSignal → s.apStartupEvent = true := by
      intro hbsp
      by_contra hclear
      simp [startupStep,bspStep,hbsp,hclear] at hstep
    obtain ⟨s₁,hnext⟩ := h.bsp_step hready hne hwait
    rw [Option.some.inj (hstep.symm.trans hnext.step)]
    exact hnext.inv
  | ap apicId => exact (h.ap_step hready.bsp hready.identifiers hstep).inv
  | mapMemory physicalAddress size baseAddress pageRights invalidate uncacheable =>
    obtain ⟨hphysical,hpages⟩ := hguard
    obtain ⟨mapped,hmap,hinv,hpool,_,hothers⟩ := h.tables.map_range c.vmmData hpaths hpages.range
      hpages.tables hphysical pageRights invalidate uncacheable
    have hbase : mapped.context.basePhysicalAddress =
        s.lowerMemory.kernel.pagingData.basePhysicalAddress := by rw [hpool]
    simp only [startupStep,hmap,Option.bind_eq_bind,Option.bind_some,Option.pure_def] at hstep
    obtain rfl := Option.some.inj hstep
    have hchange : KernelChange paths (pagesOfRange baseAddress size) s.lowerMemory.kernel
        { s.lowerMemory.kernel with memory := mapped.memory, pagingData := mapped.context } := by
      refine ⟨hinv,hpool,?_⟩
      intro va hva
      change mapped.memory.leafAt mapped.context.basePhysicalAddress _ = _
      rw [hbase]
      exact hothers _ rfl fun k hk => hva _ ⟨k,hk,rfl⟩
    exact h.setKernel hchange hpages.out fun hconfig => hconfig
  | unmapMemory virtualAddress size =>
    obtain ⟨unmapped,hunmap,hinv,_,hothers⟩ := h.tables.unmap_range hpaths hguard.range
      hguard.tables false
    simp only [startupStep,hunmap,Option.bind_eq_bind,Option.bind_some,Option.pure_def] at hstep
    obtain rfl := Option.some.inj hstep
    have hchange : KernelChange paths (pagesOfRange virtualAddress size) s.lowerMemory.kernel
        { s.lowerMemory.kernel with memory := unmapped.memory } :=
      ⟨hinv,rfl,fun va hva => hothers _ rfl fun k hk => hva _ ⟨k,hk,rfl⟩⟩
    exact h.setKernel hchange (OtherPages.out hguard) fun hconfig => hconfig
  | takeAddresses space =>
    obtain rfl := Option.some.inj hstep
    have hchange : KernelChange paths ∅ s.lowerMemory.kernel { s.lowerMemory.kernel with space } :=
      ⟨h.tables,rfl,fun _ _ => rfl⟩
    exact h.setKernel hchange (by simp) fun _ => hguard

theorem startupInv_of_reachable (hready : StartupReady c paths start)
    (hs : (startupSystem c start).ReachableUnder (fun _ action => LeavesLowerMemory c paths action)
      s) : StartupInv c paths s := by
  apply hs.invariant
  · intro s hinit
    obtain rfl := hinit
    exact .init hready
  · exact fun s action s' _ hinv hguard hstep => hinv.step hready hguard hstep

/-- The steps of the processors that start up. -/
def StartupAction.ofProcessor : StartupAction → Bool
  | .bsp | .ap _ => true
  | _ => false

def StartupState.left (c : StartupConfig) (s : StartupState) : Nat :=
  s.bsp.left + ∑ apicId ∈ c.aps.toFinset, (s.ap apicId).left

theorem left_setAp {pc : ApPc} (hmem : apicId ∈ c.aps) (hbsp : s'.bsp = s.bsp)
    (hap : s'.ap = Function.update s.ap apicId pc) (hpc : pc.left < (s.ap apicId).left) :
    s'.left c < s.left c := by
  rw [StartupState.left,StartupState.left,hbsp]
  apply Nat.add_lt_add_left
  apply Finset.sum_lt_sum
  · intro apicId' _
    by_cases hself : apicId' = apicId
    · rw [hself,hap,Function.update_self]
      exact hpc.le
    · rw [hap,Function.update_of_ne hself]
  · refine ⟨apicId,List.mem_toFinset.mpr hmem,?_⟩
    rw [hap,Function.update_self]
    exact hpc

theorem StartupInv.completes (hready : StartupReady c paths start) (h : StartupInv c paths s)
    (hzero : 0 ∉ c.aps) :
    ∃ actions s', (∀ action ∈ actions, StartupAction.ofProcessor action = true) ∧
      (startupSystem c start).run s actions = some s' ∧ s'.bsp = .apsStarted := by
  induction hleft : s.left c using Nat.strong_induction_on generalizing s with
  | h left ih =>
    by_cases hdone : s.bsp = .apsStarted
    · exact ⟨[],s,by simp,rfl,hdone⟩
    · have hnext : ∃ action s₁, StartupAction.ofProcessor action = true ∧
          startupStep c s action = some s₁ ∧ StartupInv c paths s₁ ∧ s₁.left c < left := by
        rw [← hleft]
        by_cases hwait : s.bsp = .waitForSignal → s.apStartupEvent = true
        · obtain ⟨s₁,hnext⟩ := h.bsp_step hready hdone hwait
          refine ⟨.bsp,s₁,rfl,hnext.step,hnext.inv,?_⟩
          rw [StartupState.left,StartupState.left,hnext.ap]
          exact Nat.add_lt_add_right hnext.left _
        · obtain ⟨hbsp,hclear⟩ := Classical.not_imp.mp hwait
          have hsent : s.bsp.sipiSent = true := by rw [hbsp]; rfl
          obtain ⟨apicId,hin,harrival⟩ := h.barrier.someone_missing hready.madt
            (by simpa [StartupState.barrier] using hclear)
            (by simp [StartupState.barrier,hbsp,BspPc.pastWakeup])
          have hap : apicId ≠ c.bspApicId := by
            intro heq
            simp [StartupState.barrier,StartupState.arrival,heq,hbsp,BspPc.arrival] at harrival
          simp only [StartupState.barrier,StartupState.arrival,if_neg hap] at harrival
          have hmem := c.mem_aps.mpr ⟨hin,hap⟩
          obtain ⟨s₁,hstep⟩ :=
            h.ap_enabled hready.bsp hready.identifiers hmem hsent hzero harrival
          have hnext := h.ap_step hready.bsp hready.identifiers hstep
          obtain ⟨pc,hpc,hlt⟩ := hnext.left
          exact ⟨.ap apicId,s₁,rfl,hstep,hnext.inv,left_setAp hmem hnext.bsp hpc hlt⟩
      obtain ⟨action,s₁,hprocessor,hstep,hinv,hlt⟩ := hnext
      obtain ⟨actions,s',hactions,hrun,hstarted⟩ := ih _ hlt hinv rfl
      refine ⟨action :: actions,s',?_,?_,hstarted⟩
      · simpa [hprocessor] using hactions
      · change Option.bind (startupStep c s action) _ = _
        rw [hstep]
        exact hrun

/-- The start-up of APs with identifiers up to `12`, in whatever order the processors run and whatever
else the kernel maps: the BSP is past its wait only when every AP is awake; each AP gets the `PCPU`
that was made for it; while an AP is in the trampoline the lower memory is mapped, and the AP comes
to its 32-bit code, and leaves that if and only if no AP has APIC identifier `0`; at the end none of
the lower memory is mapped; and the BSP never halts. Without APIC identifier `0` among the APs,
start-up can be finished from every state. -/
theorem ap_startup (hready : StartupReady c paths start)
    (hs : (startupSystem c start).ReachableUnder (fun _ action => LeavesLowerMemory c paths action)
      s) :
    (s.bsp.pastWakeup = true → ∀ apicId ∈ c.aps, s.ap apicId = .awake apicId) ∧
    (∀ apicId cpu, (s.ap apicId).cpu = some cpu → cpu = apicId) ∧
    (∀ apicId, s.ap apicId = .trampolineStart →
      LowerMemoryMapped s.lowerMemory.kernel c.virtualToPhysicalOffset c.aps ∧
      (apStep c s apicId).isSome = true) ∧
    (∀ apicId, s.ap apicId = .bits32 →
      LowerMemoryMapped s.lowerMemory.kernel c.virtualToPhysicalOffset c.aps ∧
      ((apStep c s apicId).isSome = true ↔ 0 ∉ c.aps)) ∧
    (s.bsp = .apsStarted → ∀ page ∈ lowerPages c.virtualToPhysicalOffset c.aps,
      s.lowerMemory.kernel.leaf page = none) ∧
    (s.bsp ≠ .apsStarted → s.bsp ≠ .waitForSignal → (bspStep c s).isSome = true) ∧
    (0 ∉ c.aps → ∃ actions s', (∀ action ∈ actions, StartupAction.ofProcessor action = true) ∧
      (startupSystem c start).run s actions = some s' ∧ s'.bsp = .apsStarted) := by
  have h := startupInv_of_reachable hready hs
  refine ⟨h.all_awake hready.bsp,?_,?_,?_,?_,?_,h.completes hready⟩
  · intro apicId cpu hcpu
    apply (h.ap apicId _).2.2 cpu hcpu
    intro hpc
    rw [hpc] at hcpu
    cases hcpu
  · intro apicId hpc
    obtain ⟨_,_,_,hmapped⟩ := h.trampoline hready.bsp (Or.inl hpc)
    refine ⟨hmapped,?_⟩
    rw [h.trampolineStart_step hready.bsp hpc]
    rfl
  · intro apicId hpc
    obtain ⟨_,_,_,hmapped⟩ := h.trampoline hready.bsp (Or.inr hpc)
    refine ⟨hmapped,?_⟩
    rw [h.bits32_step hready.bsp hready.identifiers hpc]
    by_cases hzero : 0 ∈ c.aps
    · simp [hzero]
    · simp [hzero]
  · intro hstarted
    cases h.lower with
    | before hbefore =>
      rw [hstarted] at hbefore
      cases hbefore
    | mapped hpc =>
      rw [hstarted] at hpc
      simp at hpc
    | unmapped _ _ hunmapped => exact hunmapped
  · intro hne hnotWaiting
    obtain ⟨s',hnext⟩ := h.bsp_step hready hne fun hwait => absurd hwait hnotWaiting
    rw [hnext.step]
    rfl

end Invariant

/-- A BSP with APIC identifier `2` that finds its AP behind it in the MADT. -/
def twoProcessors : StartupConfig where
  vmmData := ⟨0,3⟩
  highestPhysicalAddress := 0x10000000
  virtualToPhysicalOffset := 0xFFFF800000000000
  image := ⟨0x200,0x300,0x80⟩
  madt := [2,5]
  bspApicId := 2
  stackTop apicId := 0xFFFF860000000000 + 0x10000 * apicId

def startupPaths : Finset (List (Fin 512)) :=
  rangePaths lowMemoryCodeStart 1 ∪ rangePaths (apStackPage 5) 1 ∪
    rangePaths 0xFFFF800000002000 1 ∪ rangePaths 0xFFFF850000000000 1

theorem startupPaths_length : ∀ path ∈ startupPaths, path.length ≤ 3 := by
  intro path hpath
  simp only [startupPaths,Finset.mem_union] at hpath
  rcases hpath with ((hpath | hpath) | hpath) | hpath <;> exact rangePaths_length path hpath

theorem twoProcessors_ready : StartupReady twoProcessors startupPaths (smallKernel 16) where
  madt := by decide
  bsp := by decide
  identifiers := by decide
  plan := {
    lengths := startupPaths_length
    nodup := by decide
    entries := by decide
    tables := by
      have hpages : lowerPages twoProcessors.virtualToPhysicalOffset twoProcessors.aps =
          [lowMemoryCodeStart,0xFFFF800000002000,apStackPage 5] := by decide
      rw [hpages]
      intro page hpage path hpath
      simp only [List.mem_cons,List.not_mem_nil,or_false] at hpage
      simp only [startupPaths,Finset.mem_union]
      rcases hpage with rfl | rfl | rfl <;> simp only [hpath,true_or,or_true]
    range := ⟨by decide,by decide,by decide,by decide,by decide,by decide⟩
    half := by decide }
  config := {
    range := ⟨by decide,by decide,by decide,by decide,by decide,by decide⟩
    tables := Finset.subset_union_right
    half := by decide
    apart := by decide }
  highest := by decide
  image := ⟨by decide,by decide⟩
  root := by decide
  tables := by
    refine ⟨⟨smallKernel_tree (by decide) (by decide),?_⟩,?_⟩
    · intro path offset table _ _ hpresent
      cases hpresent
    · decide +kernel
  stack := by decide
  stack_injective := by decide

/-- The BSP has passed its wait, with the lower memory still mapped. -/
theorem ap_startup_two : ∃ s : StartupState,
    (startupSystem twoProcessors (smallKernel 16)).ReachableUnder
        (fun _ action => LeavesLowerMemory twoProcessors startupPaths action) s ∧
      s.bsp = .smpCleanupLowerMemory ∧ s.ap 5 = .awake 5 ∧
      (bspStep twoProcessors s).isSome = true := by
  obtain ⟨s,hreach,hs⟩ := TransitionSystem.exists_reachable
    (startupSystem twoProcessors (smallKernel 16))
    (fun _ action => LeavesLowerMemory twoProcessors startupPaths action)
    (.start (smallKernel 16)) rfl
    [.bsp,.bsp,.bsp,.bsp,.ap 5,.ap 5,.ap 5,.ap 5,.ap 5,.bsp]
    (fun s => decide (s.bsp = .smpCleanupLowerMemory))
    (by simp [TransitionSystem.RunSatisfies,LeavesLowerMemory]) (by decide +kernel)
  have hbsp := of_decide_eq_true hs
  obtain ⟨hawake,_,_,_,_,hsteps,_⟩ := ap_startup twoProcessors_ready hreach
  refine ⟨s,hreach,hbsp,?_,?_⟩
  · apply hawake
    · rw [hbsp]
      rfl
    · decide
  · apply hsteps
    · simp [hbsp]
    · simp [hbsp]

end Hal9000
