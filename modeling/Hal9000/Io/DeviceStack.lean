import Hal9000.Common.Machine
import Hal9000.Framework.PointerChain
import Hal9000.Framework.TransitionSystem

/-!
# Device stacks and requests

A device is attached to the one below it, and takes its stack size from it at that moment. A
request has one stack location for each device that is to see it, and every device that
forwards it uses one.
-/

namespace Hal9000

def maxByte : Nat := 2 ^ 8 - 1

/-- The requests of `IRP_MJ_*`. -/
inductive MajorFunction
  | create
  | close
  | read
  | write
  | deviceControl
  | directoryControl
  | queryInformation
  deriving DecidableEq

/-- `IO_STACK_LOCATION`, with the `ReadWrite` parameters. -/
structure IoStackLocation where
  majorFunction : MajorFunction
  length : Nat
  offset : Nat
  deriving DecidableEq

/-- `IRP`: the stack locations are the array behind the header. -/
structure Irp where
  currentStackLocation : Nat
  completed : Bool
  stackLocations : List IoStackLocation
  deriving DecidableEq

/-- `DEVICE_OBJECT`, and which dispatch functions its driver has. -/
structure DeviceObject (Device : Type) where
  attachedDevice : Option Device
  stackSize : Nat
  deviceAlignment : Nat
  dispatchFunctions : MajorFunction → Bool

inductive IrpStatus
  | success
  | deviceAlignmentNoSatisfied
  | deviceInvalidOperation
  deriving DecidableEq

/-- `IoAllocateIrp`, where the heap has the memory: it is zeroed. -/
def ioAllocateIrp (stackSize : Nat) : Option Irp := do
  assert (0 < stackSize)
  some
    { currentStackLocation := stackSize
      completed := false
      stackLocations := List.replicate stackSize ⟨.create,0,0⟩ }

/-- `IoGetCurrentIrpStackLocation`. Nothing is read outside the array. -/
def ioGetCurrentIrpStackLocation (irp : Irp) : Option IoStackLocation := do
  assert (maxByte != irp.currentStackLocation)
  irp.stackLocations[irp.currentStackLocation]?

/-- `IoGetNextIrpStackLocation`: the index of the location that is returned. -/
def ioGetNextIrpStackLocation (irp : Irp) : Option Nat := do
  assert (0 != irp.currentStackLocation)
  some (irp.currentStackLocation - 1)

def ioCopyCurrentStackLocationToNext (irp : Irp) : Option Irp := do
  assert (0 != irp.currentStackLocation)
  let location ← irp.stackLocations[irp.currentStackLocation]?
  some { irp with stackLocations := irp.stackLocations.set (irp.currentStackLocation - 1) location }

def ioCompleteIrp (irp : Irp) : Option Irp := do
  assert (!irp.completed)
  some { irp with completed := true }

section Calls

variable {Device : Type} {devices : Device → DeviceObject Device}

/-- `IoCallDriver`; `dispatch` is the dispatch function of the driver, where it has one. -/
def ioCallDriver (device : DeviceObject Device) (dispatch : Irp → Option (Irp × IrpStatus))
    (irp : Irp) : Option (Irp × IrpStatus) := do
  assert (0 != irp.currentStackLocation)
  let irp := { irp with currentStackLocation := irp.currentStackLocation - 1 }
  let location ← ioGetCurrentIrpStackLocation irp
  if (location.majorFunction = .read ∨ location.majorFunction = .write) ∧
      ¬(isAddressAligned location.length device.deviceAlignment ∧
        isAddressAligned location.offset device.deviceAlignment) then
    some (irp,.deviceAlignmentNoSatisfied)
  else if device.dispatchFunctions location.majorFunction then
    dispatch irp
  else
    some (irp,.deviceInvalidOperation)

/-- A request called into the first device of a chain: every device hands it on to the next one,
and the last one completes it. -/
def forwardIrp (devices : Device → DeviceObject Device) :
    List Device → Irp → Option (Irp × IrpStatus)
  | [],irp => some (irp,.success)
  | device :: rest,irp =>
    ioCallDriver (devices device) (fun irp =>
      if rest.isEmpty then
        (ioCompleteIrp irp).map fun irp => (irp,.success)
      else
        (ioCopyCurrentStackLocationToNext irp).bind fun irp => forwardIrp devices rest irp) irp

/-- A request built for the first device of the chain, as `_IoReadWriteDevice` builds it. -/
def requestDevice (devices : Device → DeviceObject Device) (device : Device) (chain : List Device)
    (request : IoStackLocation) : Option (Irp × IrpStatus) := do
  let irp ← ioAllocateIrp (devices device).stackSize
  let next ← ioGetNextIrpStackLocation irp
  forwardIrp devices chain { irp with stackLocations := irp.stackLocations.set next request }

private theorem assert_ne {a b : Nat} (h : a ≠ b) : assert (a != b) = some () :=
  assert_eq_some.mpr (bne_iff_ne.mpr h)

/-- What a request needs to pass the devices of a chain. -/
structure IrpFits (irp : Irp) (devicesLeft : Nat) : Prop where
  current : devicesLeft ≤ irp.currentStackLocation
  byte : irp.currentStackLocation ≤ maxByte
  locations : irp.currentStackLocation ≤ irp.stackLocations.length
  pending : irp.completed = false

theorem ioCallDriver_returns {device : DeviceObject Device}
    {dispatch : Irp → Option (Irp × IrpStatus)} {irp : Irp} {devicesLeft : Nat}
    (hirp : IrpFits irp (devicesLeft + 1))
    (hdispatch : ∃ result, dispatch { irp with
      currentStackLocation := irp.currentStackLocation - 1 } = some result) :
    ∃ result, ioCallDriver device dispatch irp = some result := by
  have hcurrent := hirp.current
  have hbyte := hirp.byte
  have hlocations := hirp.locations
  have hne : 0 ≠ irp.currentStackLocation := by omega
  have hmax : maxByte ≠ irp.currentStackLocation - 1 := by omega
  have hlt : irp.currentStackLocation - 1 < irp.stackLocations.length := by omega
  have hget := List.getElem?_eq_getElem hlt
  rw [ioCallDriver,assert_ne hne]
  simp only [Option.bind_eq_bind,Option.bind_some,ioGetCurrentIrpStackLocation,assert_ne hmax,hget]
  split
  · exact ⟨_,rfl⟩
  · split
    · exact hdispatch
    · exact ⟨_,rfl⟩

theorem ioCopyCurrentStackLocationToNext_fits {irp : Irp} {devicesLeft : Nat}
    (hirp : IrpFits irp (devicesLeft + 1))
    (hlt : irp.currentStackLocation < irp.stackLocations.length) :
    ∃ irp', ioCopyCurrentStackLocationToNext irp = some irp' ∧
      IrpFits irp' (devicesLeft + 1) := by
  have hcurrent := hirp.current
  have hne : 0 ≠ irp.currentStackLocation := by omega
  rw [ioCopyCurrentStackLocationToNext,assert_ne hne]
  simp only [Option.bind_eq_bind,Option.bind_some,List.getElem?_eq_getElem hlt]
  refine ⟨_,rfl,hirp.current,hirp.byte,?_,hirp.pending⟩
  simpa only [List.length_set] using hirp.locations

theorem forwardIrp_returns {chain : List Device} {irp : Irp} (hirp : IrpFits irp chain.length) :
    ∃ result, forwardIrp devices chain irp = some result := by
  induction chain generalizing irp with
  | nil => exact ⟨_,rfl⟩
  | cons device rest ih =>
    refine ioCallDriver_returns hirp ?_
    have hcurrent := hirp.current
    have hbyte := hirp.byte
    have hlocations := hirp.locations
    rw [List.length_cons] at hcurrent
    cases rest with
    | nil =>
      rw [if_pos List.isEmpty_nil,ioCompleteIrp,hirp.pending]
      exact ⟨_,rfl⟩
    | cons below rest =>
      rw [if_neg (by simp)]
      rw [List.length_cons] at hcurrent
      have hfits : IrpFits { irp with currentStackLocation := irp.currentStackLocation - 1 }
          (rest.length + 1) :=
        ⟨by dsimp only; omega,by dsimp only; omega,by dsimp only; omega,hirp.pending⟩
      obtain ⟨irp',hcopy,hirp'⟩ :=
        ioCopyCurrentStackLocationToNext_fits hfits (by dsimp only; omega)
      rw [hcopy]
      exact ih hirp'

theorem requestDevice_returns {device : Device} {chain : List Device}
    (hsize : (devices device).stackSize = chain.length) (hpos : 0 < chain.length)
    (hbyte : chain.length ≤ maxByte) (request : IoStackLocation) :
    ∃ result, requestDevice devices device chain request = some result := by
  have hne : 0 ≠ chain.length := by omega
  have hassert : assert (0 < chain.length) = some () := assert_eq_some.mpr (decide_eq_true hpos)
  rw [requestDevice,hsize,ioAllocateIrp,hassert]
  simp only [Option.bind_eq_bind,Option.bind_some,ioGetNextIrpStackLocation,assert_ne hne]
  exact forwardIrp_returns ⟨le_rfl,hbyte,by simp only [List.length_set,List.length_replicate,le_refl],rfl⟩

/-- The state `IoCreateDevice` leaves a device in, whatever its driver. -/
def created (device : DeviceObject Device) : Prop :=
  device.attachedDevice = none ∧ device.stackSize = 1

/-- The chain reached from a device through `AttachedDevice`. -/
def DeviceChain (devices : Device → DeviceObject Device) (device : Device)
    (chain : List Device) : Prop :=
  ChainFrom (fun device => (devices device).attachedDevice) device chain

/-- The stack size is the length of the chain, and a request sent to the device returns from
every device of it. -/
def StackSizeCounts (devices : Device → DeviceObject Device) (device : Device) : Prop :=
  ∃ chain, DeviceChain devices device chain ∧ (devices device).stackSize = chain.length ∧
    ∀ request, ∃ result, requestDevice devices device chain request = some result

/-- Every stack size is the length of a chain, and fits in its byte. -/
def SizesCount (devices : Device → DeviceObject Device) : Prop :=
  ∀ device, ∃ chain, DeviceChain devices device chain ∧
    (devices device).stackSize = chain.length ∧ chain.length ≤ maxByte

theorem SizesCount.stackSizeCounts (h : SizesCount devices) (device : Device) :
    StackSizeCounts devices device := by
  obtain ⟨chain,hchain,hsize,hbyte⟩ := h device
  exact ⟨chain,hchain,hsize,requestDevice_returns hsize hchain.length_pos hbyte⟩

theorem sizesCount_created (h : ∀ device, created (devices device)) : SizesCount devices :=
  fun device => ⟨[device],.last (h device).1,(h device).2,by simp [maxByte]⟩

end Calls

section Attach

variable {Device : Type} [DecidableEq Device]

/-- `IoAttachDevice`; the stack size is a byte. -/
def ioAttachDevice (devices : Device → DeviceObject Device) (sourceDevice targetDevice : Device) :
    Option (Device → DeviceObject Device) := do
  assert (devices sourceDevice).attachedDevice.isNone
  let source := { devices sourceDevice with attachedDevice := some targetDevice }
  let devices := Function.update devices sourceDevice source
  let source := { source with stackSize := ((devices targetDevice).stackSize + 1) % 2 ^ 8 }
  some (Function.update devices sourceDevice source)

/-- A call of `IoAttachDevice`. -/
structure AttachCall (Device : Type) where
  source : Device
  target : Device

def deviceStacks (Device : Type) [DecidableEq Device] :
    TransitionSystem (Device → DeviceObject Device) (AttachCall Device) where
  init devices := ∀ device, created (devices device)
  step devices call := ioAttachDevice devices call.source call.target

/-- The device is not attached yet, and attaching it closes no cycle. -/
def AttachedOnce (devices : Device → DeviceObject Device) (call : AttachCall Device) : Prop :=
  (devices call.source).attachedDevice = none ∧
    ∀ chain, DeviceChain devices call.target chain → call.source ∉ chain

/-- Nothing is attached to the device yet, and the stack of its target can grow. -/
def AttachedBottomUp (devices : Device → DeviceObject Device) (call : AttachCall Device) : Prop :=
  (∀ device, (devices device).attachedDevice ≠ some call.source) ∧
    ∀ chain, DeviceChain devices call.target chain → chain.length < maxByte

variable {devices : Device → DeviceObject Device}

theorem ioAttachDevice_spec {sourceDevice : Device} (targetDevice : Device)
    (hnone : (devices sourceDevice).attachedDevice = none) :
    ∃ devices', ioAttachDevice devices sourceDevice targetDevice = some devices' ∧
      (fun device => (devices' device).attachedDevice) =
        Function.update (fun device => (devices device).attachedDevice) sourceDevice
          (some targetDevice) ∧
      (devices' sourceDevice).stackSize = ((devices targetDevice).stackSize + 1) % 2 ^ 8 ∧
      ∀ device ≠ sourceDevice, (devices' device).stackSize = (devices device).stackSize := by
  have hassert : assert (devices sourceDevice).attachedDevice.isNone = some () :=
    assert_eq_some.mpr (by rw [hnone]; rfl)
  rw [ioAttachDevice,hassert]
  refine ⟨_,rfl,?_,?_,?_⟩
  · funext device
    by_cases hdevice : device = sourceDevice
    · subst hdevice
      simp only [Function.update_self]
    · simp only [Function.update_of_ne hdevice]
  · rw [Function.update_self]
    by_cases htarget : targetDevice = sourceDevice
    · subst htarget
      simp only [Function.update_self]
    · simp only [Function.update_of_ne htarget]
  · intro device hdevice
    simp only [Function.update_of_ne hdevice]

section Call

variable {call : AttachCall Device} {devices' : Device → DeviceObject Device}

theorem pointers_after (honce : AttachedOnce devices call)
    (hstep : ioAttachDevice devices call.source call.target = some devices') :
    (fun device => (devices' device).attachedDevice) =
        Function.update (fun device => (devices device).attachedDevice) call.source
          (some call.target) ∧
      (devices' call.source).stackSize = ((devices call.target).stackSize + 1) % 2 ^ 8 ∧
      ∀ device ≠ call.source, (devices' device).stackSize = (devices device).stackSize := by
  obtain ⟨devices₁,hspec,hafter⟩ := ioAttachDevice_spec call.target honce.1
  rw [hstep] at hspec
  cases hspec
  exact hafter

theorem deviceChain_after (honce : AttachedOnce devices call)
    (hstep : ioAttachDevice devices call.source call.target = some devices') {device : Device}
    {chain rest : List Device} (hchain : DeviceChain devices device chain)
    (hrest : DeviceChain devices call.target rest) :
    DeviceChain devices' device (if call.source ∈ chain then chain ++ rest else chain) := by
  rw [DeviceChain,(pointers_after honce hstep).1]
  exact hchain.update honce.1 hrest (honce.2 rest hrest)

theorem SizesCount.attach (h : SizesCount devices) (honce : AttachedOnce devices call)
    (hup : AttachedBottomUp devices call)
    (hstep : ioAttachDevice devices call.source call.target = some devices') :
    SizesCount devices' := by
  intro device
  obtain ⟨chain,hchain,hsize,hbyte⟩ := h device
  obtain ⟨rest,hrest,htarget,-⟩ := h call.target
  obtain ⟨-,hsource,hothers⟩ := pointers_after honce hstep
  have hlt := hup.2 rest hrest
  refine ⟨_,deviceChain_after honce hstep hchain hrest,?_⟩
  by_cases hmem : call.source ∈ chain
  · have htop : device = call.source := hchain.eq_of_top hup.1 hmem
    subst htop
    have hlast : chain = [call.source] := hchain.unique (.last honce.1)
    subst hlast
    rw [if_pos hmem,hsource,htarget]
    simp only [List.singleton_append,List.length_cons]
    have hmod : (rest.length + 1) % 2 ^ 8 = rest.length + 1 :=
      Nat.mod_eq_of_lt (by unfold maxByte at hlt; omega)
    exact ⟨hmod,hlt⟩
  · have hne : device ≠ call.source := fun heq => hmem (heq ▸ hchain.mem)
    rw [if_neg hmem,hothers device hne]
    exact ⟨hsize,hbyte⟩

theorem attachedBottomUp_of_counts (h : SizesCount devices) (honce : AttachedOnce devices call)
    (hstep : ioAttachDevice devices call.source call.target = some devices')
    (hcounts : ∀ device, StackSizeCounts devices' device) : AttachedBottomUp devices call := by
  obtain ⟨rest,hrest,htarget,-⟩ := h call.target
  obtain ⟨-,hsource,hothers⟩ := pointers_after honce hstep
  have hlength : ∀ {device chain}, DeviceChain devices device chain → call.source ∈ chain →
      (devices' device).stackSize = chain.length + rest.length := by
    intro device chain hchain hmem
    obtain ⟨chain',hchain',hsize,-⟩ := hcounts device
    have hafter := deviceChain_after honce hstep hchain hrest
    rw [if_pos hmem] at hafter
    rw [hsize,hchain'.unique hafter,List.length_append]
  refine ⟨?_,?_⟩
  · intro device hdevice
    obtain ⟨chain,hchain,hsize,-⟩ := h device
    have hne : device ≠ call.source := by
      rintro rfl
      rw [honce.1] at hdevice
      cases hdevice
    have hlong : chain = [device,call.source] := hchain.unique (.link hdevice (.last honce.1))
    have hstale := hlength hchain (by simp [hlong])
    rw [hothers device hne,hsize] at hstale
    have hpos := hrest.length_pos
    omega
  · intro chain hchain
    have hcount := hlength (.last honce.1) List.mem_cons_self
    rw [hsource,List.length_singleton] at hcount
    have hlt := Nat.mod_lt ((devices call.target).stackSize + 1) (by decide : 0 < 2 ^ 8)
    rw [hchain.unique hrest]
    unfold maxByte
    omega

end Call

/-- The stack sizes are right in every state of a sequence of attaches exactly when no device
is attached once something is attached to it, and no chain grows past a byte. -/
theorem stack_size_counts_iff {start : Device → DeviceObject Device}
    {calls : List (AttachCall Device)} (hinit : (deviceStacks Device).init start)
    (honce : (deviceStacks Device).RunSatisfies AttachedOnce start calls) :
    (∀ done, done <+: calls → ∀ devices, (deviceStacks Device).run start done = some devices →
      ∀ device, StackSizeCounts devices device) ↔
      (deviceStacks Device).RunSatisfies AttachedBottomUp start calls := by
  have hsizes : SizesCount start := sizesCount_created hinit
  clear hinit
  induction calls generalizing start with
  | nil =>
    refine ⟨fun _ => trivial,?_⟩
    intro _ done hdone devices hrun device
    rw [List.prefix_nil.mp hdone] at hrun
    cases hrun
    exact hsizes.stackSizeCounts device
  | cons call calls ih =>
    obtain ⟨hcall,hcalls⟩ := honce
    obtain ⟨devices',hstep,-⟩ := ioAttachDevice_spec call.target hcall.1
    have hstep' : (deviceStacks Device).step start call = some devices' := hstep
    have hrun : ∀ done, (deviceStacks Device).run start (call :: done) =
        (deviceStacks Device).run devices' done := by
      intro done
      rw [TransitionSystem.run,hstep',Option.bind_some]
    constructor
    · intro h
      have hup : AttachedBottomUp start call :=
        attachedBottomUp_of_counts hsizes hcall hstep
          (h [call] (List.prefix_append [call] calls) devices' (hrun []))
      refine ⟨hup,?_⟩
      intro devices₁ hstep₁
      cases hstep'.symm.trans hstep₁
      refine (ih (hcalls _ hstep') (hsizes.attach hcall hup hstep)).mp ?_
      intro done hdone devices hdevices
      exact h (call :: done) (List.cons_prefix_cons.mpr ⟨rfl,hdone⟩) devices
        ((hrun done).trans hdevices)
    · rintro ⟨hup,hups⟩ done hdone devices hdevices
      cases done with
      | nil =>
        cases hdevices
        exact hsizes.stackSizeCounts
      | cons call' done =>
        obtain ⟨rfl,hrest⟩ := List.cons_prefix_cons.mp hdone
        rw [hrun] at hdevices
        exact (ih (hcalls _ hstep') (hsizes.attach hcall hup hstep)).mpr (hups _ hstep') done hrest
          devices hdevices

end Attach

/-- Three devices that a driver has just created. -/
def threeDevices : Fin 3 → DeviceObject (Fin 3) := fun _ => ⟨none,1,512,fun _ => true⟩

private theorem threeDevices_chain (device : Fin 3) : DeviceChain threeDevices device [device] :=
  .last rfl

private theorem threeDevices_link {devices : Fin 3 → DeviceObject (Fin 3)}
    (h : (deviceStacks (Fin 3)).step threeDevices ⟨1,2⟩ = some devices) :
    DeviceChain devices 1 [1,2] := by
  cases h
  exact .link rfl (.last rfl)

theorem stack_size_counts_three :
    (deviceStacks (Fin 3)).RunSatisfies AttachedOnce threeDevices [⟨1,2⟩,⟨0,1⟩] ∧
      ∀ done, done <+: [⟨1,2⟩,⟨0,1⟩] → ∀ devices,
        (deviceStacks (Fin 3)).run threeDevices done = some devices →
        ∀ device, StackSizeCounts devices device := by
  have honce : (deviceStacks (Fin 3)).RunSatisfies AttachedOnce threeDevices [⟨1,2⟩,⟨0,1⟩] := by
    refine ⟨⟨rfl,?_⟩,?_⟩
    · intro chain hchain
      rw [hchain.unique (threeDevices_chain 2)]
      decide
    · intro devices hstep
      refine ⟨⟨by cases hstep; rfl,?_⟩,fun _ _ => trivial⟩
      intro chain hchain
      rw [hchain.unique (threeDevices_link hstep)]
      decide
  have hup : (deviceStacks (Fin 3)).RunSatisfies AttachedBottomUp threeDevices [⟨1,2⟩,⟨0,1⟩] := by
    refine ⟨⟨?_,?_⟩,?_⟩
    · intro device hdevice
      cases hdevice
    · intro chain hchain
      rw [hchain.unique (threeDevices_chain 2)]
      decide
    · intro devices hstep
      refine ⟨⟨by cases hstep; decide,?_⟩,fun _ _ => trivial⟩
      intro chain hchain
      rw [hchain.unique (threeDevices_link hstep)]
      decide
  exact ⟨honce,(stack_size_counts_iff (fun _ => ⟨rfl,rfl⟩) honce).mpr hup⟩

/-- Attached from the top down, the first device keeps the stack size of a shorter chain, and a
request sent to it has no stack location for the last device. -/
theorem stack_size_left_behind :
    (∀ device, created (threeDevices device)) ∧
      (deviceStacks (Fin 3)).RunSatisfies AttachedOnce threeDevices [⟨0,1⟩,⟨1,2⟩] ∧
      ∃ devices, (deviceStacks (Fin 3)).run threeDevices [⟨0,1⟩,⟨1,2⟩] = some devices ∧
        DeviceChain devices 0 [0,1,2] ∧ (devices 0).stackSize = 2 ∧
        requestDevice devices 0 [0,1,2] ⟨.read,512,0⟩ = none := by
  refine ⟨fun _ => ⟨rfl,rfl⟩,⟨⟨rfl,?_⟩,?_⟩,_,rfl,.link rfl (.link rfl (.last rfl)),by decide,by decide⟩
  · intro chain hchain
    rw [hchain.unique (threeDevices_chain 1)]
    decide
  · rintro devices ⟨⟩
    refine ⟨⟨rfl,?_⟩,fun _ _ => trivial⟩
    intro chain hchain
    have hlast : chain = [2] := hchain.unique (.last rfl)
    rw [hlast]
    decide

end Hal9000
