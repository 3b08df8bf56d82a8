import Hal9000.Io.IoApicSystem

/-!
# The list of the PCI devices

The devices are searched by what their headers say and by where they are, they are put below the
bridges that lead to them, and a device without a routing entry gets an interrupt line by way of
the bridges above it.
-/

namespace Hal9000

inductive PciHeaderLayout
  | device
  | pciToPci
  | other
  deriving DecidableEq

structure PciHeader where
  vendorId : Nat
  deviceId : Nat
  classCode : Nat
  subclass : Nat
  layout : PciHeaderLayout
  interruptPin : Nat
  secondaryBusNumber : Nat
  deriving DecidableEq

/-- `PCI_DEVICE_DESCRIPTION`, without the pointer to the parent. -/
structure PciDeviceDescription where
  deviceLocation : PciDeviceLocation
  header : PciHeader
  deriving DecidableEq

structure PciDescription where
  vendorId : Nat
  deviceId : Nat
  classCode : Nat
  subclass : Nat

structure PciSpec where
  matchClass : Bool
  matchSubclass : Bool
  matchVendor : Bool
  matchDevice : Bool
  description : PciDescription

structure PciSpecLocation where
  matchBus : Bool
  matchDevice : Bool
  matchFunction : Bool
  location : PciDeviceLocation

def PciSpec.matching (spec : PciSpec) (device : PciDeviceDescription) : Bool :=
  (!spec.matchClass || device.header.classCode == spec.description.classCode) &&
  (!spec.matchSubclass || device.header.subclass == spec.description.subclass) &&
  (!spec.matchVendor || device.header.vendorId == spec.description.vendorId) &&
  (!spec.matchDevice || device.header.deviceId == spec.description.deviceId)

def PciSpecLocation.matching (spec : PciSpecLocation) (device : PciDeviceDescription) : Bool :=
  (!spec.matchBus || device.deviceLocation.bus == spec.location.bus) &&
  (!spec.matchDevice || device.deviceLocation.device == spec.location.device) &&
  (!spec.matchFunction || device.deviceLocation.function == spec.location.function)

inductive PciStatus
  | success
  | invalidParameter1
  | invalidParameter5
  | bufferTooSmall
  | elementNotFound
  deriving DecidableEq

/-- What a call stores from the address `PciDevices` on: nothing where there is `none`. -/
abbrev PciDeviceSlots := Nat → Option PciDeviceDescription

structure PciSearch where
  status : PciStatus
  pciDevices : PciDeviceSlots
  numberOfDevices : Option Nat

/-- The loop over the list: the number of devices found, if it ends, and what is stored. The
capacity is `none` when `PciDevices` is `NULL`. -/
def findDevicesLoop (matching : PciDeviceDescription → Bool) (capacity : Option Nat) :
    List PciDeviceDescription → Nat → PciDeviceSlots → Option Nat × PciDeviceSlots
  | [],noOfDevicesFound,slots => (some noOfDevicesFound,slots)
  | device :: rest,noOfDevicesFound,slots =>
    if matching device then
      match capacity with
      | none => findDevicesLoop matching capacity rest ((noOfDevicesFound + 1) % 2 ^ 32) slots
      | some numberOfDevices =>
        if noOfDevicesFound > numberOfDevices then (none,slots)
        else findDevicesLoop matching capacity rest ((noOfDevicesFound + 1) % 2 ^ 32)
          (Function.update slots noOfDevicesFound (some device))
    else findDevicesLoop matching capacity rest noOfDevicesFound slots

/-- The body that both searches share; `pciDevices` tells whether there is an array. -/
def findDevicesMatching (matching : PciDeviceDescription → Bool)
    (pciDeviceList : Option (List PciDeviceDescription)) (pciDevices : Bool)
    (numberOfDevices : Option Nat) : PciSearch :=
  match pciDeviceList,numberOfDevices with
  | none,_ => ⟨.invalidParameter1,fun _ => none,numberOfDevices⟩
  | some _,none => ⟨.invalidParameter5,fun _ => none,none⟩
  | some devices,some capacity =>
    match findDevicesLoop matching (if pciDevices then some capacity else none) devices 0
      (fun _ => none) with
    | (none,slots) => ⟨.bufferTooSmall,slots,some capacity⟩
    | (some found,slots) =>
      ⟨if found ≠ 0 then .success else .elementNotFound,slots,some found⟩

def pciSystemFindDevicesMatchingSpecification
    (pciDeviceList : Option (List PciDeviceDescription)) (specification : PciSpec)
    (pciDevices : Bool) (numberOfDevices : Option Nat) : PciSearch :=
  findDevicesMatching specification.matching pciDeviceList pciDevices numberOfDevices

def pciSystemFindDevicesMatchingLocation
    (pciDeviceList : Option (List PciDeviceDescription)) (specification : PciSpecLocation)
    (pciDevices : Bool) (numberOfDevices : Option Nat) : PciSearch :=
  findDevicesMatching specification.matching pciDeviceList pciDevices numberOfDevices

/-- What a search with an array of `capacity` entries has to do. -/
structure PciSearch.FindsDevices (search : PciSearch) (matching : PciDeviceDescription → Bool)
    (devices : List PciDeviceDescription) (capacity : Nat) : Prop where
  inside : ∀ i, capacity ≤ i → search.pciDevices i = none
  tooSmall : search.status = .bufferTooSmall ↔ capacity < (devices.filter matching).length
  filled : (devices.filter matching).length ≤ capacity →
    (∀ i, search.pciDevices i = (devices.filter matching)[i]?) ∧
      search.numberOfDevices = some (devices.filter matching).length

section Search

variable {matching : PciDeviceDescription → Bool} {capacity : Nat}

theorem findDevicesLoop_within (hcapacity : capacity < 2 ^ 32)
    (devices : List PciDeviceDescription) (found : Nat) (slots : PciDeviceSlots)
    (hfit : found + (devices.filter matching).length ≤ capacity) :
    findDevicesLoop matching (some capacity) devices found slots =
      (some (found + (devices.filter matching).length),
        fun i => if found ≤ i ∧ i < found + (devices.filter matching).length then
          (devices.filter matching)[i - found]? else slots i) := by
  induction devices generalizing found slots with
  | nil =>
    refine Prod.ext rfl (funext fun i => ?_)
    exact (if_neg (by rw [List.filter_nil,List.length_nil]; omega)).symm
  | cons device rest ih =>
    rw [findDevicesLoop]
    by_cases hmatch : matching device
    · rw [List.filter_cons_of_pos hmatch,List.length_cons] at hfit
      rw [if_pos hmatch,if_neg (by omega),Nat.mod_eq_of_lt (by omega),
        ih (found + 1) _ (by omega),List.filter_cons_of_pos hmatch,List.length_cons]
      congr 1
      · congr 1
        omega
      · funext i
        rcases Nat.lt_trichotomy i found with hlt | rfl | hgt
        · rw [if_neg (by omega),if_neg (by omega),Function.update_of_ne (by omega)]
        · rw [if_neg (by omega),if_pos (by omega),Function.update_self,Nat.sub_self]
          rfl
        · rw [show i - found = (i - (found + 1)) + 1 by omega,List.getElem?_cons_succ]
          by_cases hin : i < found + 1 + (rest.filter matching).length
          · rw [if_pos (by omega),if_pos (by omega)]
          · rw [if_neg (by omega),if_neg (by omega),Function.update_of_ne (by omega)]
    · rw [List.filter_cons_of_neg hmatch] at hfit ⊢
      rw [if_neg hmatch,ih found slots hfit]

theorem findDevicesLoop_keeps (devices : List PciDeviceDescription) (found : Nat)
    (slots : PciDeviceSlots) {i : Nat} (hi : slots i ≠ none) :
    (findDevicesLoop matching (some capacity) devices found slots).2 i ≠ none := by
  induction devices generalizing found slots with
  | nil => exact hi
  | cons device rest ih =>
    rw [findDevicesLoop]
    by_cases hmatch : matching device
    · rw [if_pos hmatch]
      by_cases hover : found > capacity
      · rwa [if_pos hover]
      · rw [if_neg hover]
        apply ih
        by_cases heq : i = found
        · rw [heq,Function.update_self]
          simp
        · rwa [Function.update_of_ne heq]
    · rw [if_neg hmatch]
      exact ih found slots hi

theorem findDevicesLoop_beyond (hcapacity : capacity < 2 ^ 32)
    (devices : List PciDeviceDescription) (found : Nat) (slots : PciDeviceSlots)
    (hfound : found ≤ capacity) (hmany : capacity < found + (devices.filter matching).length) :
    (findDevicesLoop matching (some capacity) devices found slots).2 capacity ≠ none := by
  induction devices generalizing found slots with
  | nil =>
    rw [List.filter_nil,List.length_nil] at hmany
    omega
  | cons device rest ih =>
    rw [findDevicesLoop]
    by_cases hmatch : matching device
    · rw [List.filter_cons_of_pos hmatch,List.length_cons] at hmany
      rw [if_pos hmatch,if_neg (by omega)]
      by_cases hlast : found = capacity
      · apply findDevicesLoop_keeps
        rw [hlast,Function.update_self]
        simp
      · rw [Nat.mod_eq_of_lt (by omega)]
        exact ih (found + 1) _ (by omega) (by omega)
    · rw [List.filter_cons_of_neg hmatch] at hmany
      rw [if_neg hmatch]
      exact ih found slots hfound hmany

theorem findDevicesMatching_iff (hcapacity : capacity < 2 ^ 32)
    (devices : List PciDeviceDescription) :
    (findDevicesMatching matching (some devices) true (some capacity)).FindsDevices matching
      devices capacity ↔ (devices.filter matching).length ≤ capacity := by
  constructor
  · intro h
    by_contra hmany
    have hstored := findDevicesLoop_beyond hcapacity devices 0 (fun _ => none) (Nat.zero_le _)
      (by rw [Nat.zero_add]; exact Nat.lt_of_not_le hmany)
    apply hstored
    have hinside := h.inside capacity (Nat.le_refl _)
    simp only [findDevicesMatching,if_true] at hinside
    split at hinside
    all_goals
      rename_i heq
      rw [heq]
      exact hinside
  · intro hfit
    have hloop := findDevicesLoop_within hcapacity devices 0 (fun _ => none)
      (by rwa [Nat.zero_add])
    simp only [Nat.zero_add,Nat.zero_le,true_and,Nat.sub_zero] at hloop
    simp only [findDevicesMatching,if_true,hloop]
    constructor
    · intro i hi
      dsimp only
      rw [if_neg (by omega)]
    · dsimp only
      split
      all_goals
        simp
        omega
    · intro _
      refine ⟨fun i => ?_,rfl⟩
      dsimp only
      split
      · rfl
      · rw [List.getElem?_eq_none (by omega)]

end Search

/-- Both searches do what they have to exactly when the array has an entry for every device that
matches: the test for a full array lets one more through. -/
theorem findDevices_iff_array_large_enough (devices : List PciDeviceDescription)
    (specification : PciSpec) (location : PciSpecLocation) (capacity : Nat)
    (hcapacity : capacity < 2 ^ 32) :
    ((pciSystemFindDevicesMatchingSpecification (some devices) specification true
        (some capacity)).FindsDevices specification.matching devices capacity ↔
      (devices.filter specification.matching).length ≤ capacity) ∧
    ((pciSystemFindDevicesMatchingLocation (some devices) location true
        (some capacity)).FindsDevices location.matching devices capacity ↔
      (devices.filter location.matching).length ≤ capacity) :=
  ⟨findDevicesMatching_iff hcapacity devices,findDevicesMatching_iff hcapacity devices⟩

/-- A display controller at (0.2.0). -/
def exampleDisplay : PciDeviceDescription :=
  ⟨⟨0,2,0⟩,⟨0x8086,0x1234,3,0,.device,1,0⟩⟩

/-- A search for display controllers. -/
def exampleSpec : PciSpec := ⟨true,false,false,false,⟨0,0,3,0⟩⟩

/-- Two display controllers, and a network card between them. -/
def exampleDevices : List PciDeviceDescription :=
  [exampleDisplay,⟨⟨0,3,0⟩,⟨0x8086,0x100E,2,0,.device,1,0⟩⟩,⟨⟨1,0,0⟩,⟨0x1002,0x5678,3,0,.device,1,0⟩⟩]

theorem findDevices_array_of_two :
    (pciSystemFindDevicesMatchingSpecification (some exampleDevices) exampleSpec true
      (some 2)).FindsDevices exampleSpec.matching exampleDevices 2 ∧
    ¬ (pciSystemFindDevicesMatchingSpecification (some exampleDevices) exampleSpec true
      (some 1)).FindsDevices exampleSpec.matching exampleDevices 1 ∧
    (pciSystemFindDevicesMatchingLocation (some exampleDevices) ⟨true,false,false,⟨0,0,0⟩⟩ true
      (some 2)).FindsDevices (PciSpecLocation.matching ⟨true,false,false,⟨0,0,0⟩⟩)
        exampleDevices 2 := by
  obtain ⟨hspec,hlocation⟩ := findDevices_iff_array_large_enough exampleDevices exampleSpec
    ⟨true,false,false,⟨0,0,0⟩⟩ 2 (by decide)
  obtain ⟨hfull,-⟩ := findDevices_iff_array_large_enough exampleDevices exampleSpec
    ⟨true,false,false,⟨0,0,0⟩⟩ 1 (by decide)
  exact ⟨hspec.mpr (by decide),fun h => absurd (hfull.mp h) (by decide),hlocation.mpr (by decide)⟩

/-- With no entry in the array, the one device that matches is stored behind it and the search
succeeds. -/
theorem findDevices_empty_array :
    (pciSystemFindDevicesMatchingLocation (some [exampleDisplay]) ⟨true,true,true,⟨0,2,0⟩⟩ true
      (some 0)).pciDevices 0 = some exampleDisplay ∧
    (pciSystemFindDevicesMatchingLocation (some [exampleDisplay]) ⟨true,true,true,⟨0,2,0⟩⟩ true
      (some 0)).status = .success ∧
    ¬ (pciSystemFindDevicesMatchingLocation (some [exampleDisplay]) ⟨true,true,true,⟨0,2,0⟩⟩ true
      (some 0)).FindsDevices (PciSpecLocation.matching ⟨true,true,true,⟨0,2,0⟩⟩)
        [exampleDisplay] 0 := by
  have hstored : (pciSystemFindDevicesMatchingLocation (some [exampleDisplay])
      ⟨true,true,true,⟨0,2,0⟩⟩ true (some 0)).pciDevices 0 = some exampleDisplay := by decide
  refine ⟨hstored,by decide,fun h => ?_⟩
  have hinside := h.inside 0 (Nat.le_refl 0)
  rw [hstored] at hinside
  cases hinside

def PciDeviceDescription.leadsTo (bus : Nat) (device : PciDeviceDescription) : Bool :=
  device.header.layout == .pciToPci && device.header.secondaryBusNumber == bus

/-- `_PciSystemRetrieveParentForDevice`: the list holds bridges only, each with its place in the
list of the devices. -/
def pciSystemRetrieveParentForDevice (bridgeList : List (Nat × PciDeviceDescription))
    (bus : Nat) : Option Nat :=
  (bridgeList.find? (fun bridge => bridge.2.header.secondaryBusNumber == bus)).map (·.1)

/-- The loop from the device at `place` on. A parent is the place of a device; the function stops
at the place of the device for which it has no parent (`NOT_REACHED`). -/
def establishHierarchyLoop : List PciDeviceDescription → Nat →
    List (Nat × PciDeviceDescription) → Except Nat (List (Option Nat))
  | [],_,_ => .ok []
  | device :: rest,place,bridgeList =>
    let bridgeList :=
      if device.header.layout = .pciToPci then bridgeList ++ [(place,device)] else bridgeList
    if device.deviceLocation.bus ≠ 0 then
      match pciSystemRetrieveParentForDevice bridgeList device.deviceLocation.bus with
      | none => .error place
      | some parent =>
        (establishHierarchyLoop rest (place + 1) bridgeList).map (some parent :: ·)
    else (establishHierarchyLoop rest (place + 1) bridgeList).map (none :: ·)

/-- The list of the bridges is empty and no device has a parent before the call. -/
def pciSystemEstablishHierarchy (devices : List PciDeviceDescription) :
    Except Nat (List (Option Nat)) :=
  establishHierarchyLoop devices 0 []

/-- The device at `parent` is the parent of the one at `child`. -/
def IsParent (parents : List (Option Nat)) (parent child : Nat) : Prop :=
  parents[child]? = some (some parent)

/-- The walk over the `Parent` pointers, for at most `fuel` devices. -/
def parentChain (devices : List PciDeviceDescription) (parents : List (Option Nat)) :
    Nat → Nat → Option (List PciDeviceDescription)
  | 0,_ => none
  | fuel + 1,place =>
    match parents[place]? with
    | some (some parent) => do
      let description ← devices[parent]?
      let rest ← parentChain devices parents fuel parent
      return description :: rest
    | _ => some []

/-- The device is on a bus other than 0 that a bridge of the list leads to. -/
def BehindBridge (devices : List PciDeviceDescription) (device : PciDeviceDescription) : Prop :=
  device.deviceLocation.bus ≠ 0 ∧ ∃ bridge ∈ devices, bridge.leadsTo device.deviceLocation.bus

/-- What `PciSystemEstablishHierarchy` has to leave. -/
structure HierarchyOf (devices : List PciDeviceDescription) (parents : List (Option Nat)) :
    Prop where
  acyclic : ∀ place, ¬ Relation.TransGen (IsParent parents) place place
  terminates : ∀ place, ∃ fuel chain, parentChain devices parents fuel place = some chain
  parent : ∀ place device, devices[place]? = some device → BehindBridge devices device →
    ∃ parent bridge, IsParent parents parent place ∧ devices[parent]? = some bridge ∧
      bridge.leadsTo device.deviceLocation.bus

/-- The function returns with the hierarchy, or stops at a device that is behind no bridge. -/
def EstablishesHierarchy (devices : List PciDeviceDescription) : Prop :=
  match pciSystemEstablishHierarchy devices with
  | .ok parents => HierarchyOf devices parents
  | .error place => ∀ device, devices[place]? = some device → ¬ BehindBridge devices device

/-- No bridge up to the device at `place` leads to its bus. -/
def WithoutEarlierBridge (devices : List PciDeviceDescription) (place : Nat) : Prop :=
  ∃ device, devices[place]? = some device ∧ device.deviceLocation.bus ≠ 0 ∧
    ∀ bridge ∈ devices.take (place + 1), ¬ bridge.leadsTo device.deviceLocation.bus

/-- The first bridge that leads to the bus of the device at `place` is that device. -/
def FirstLeadsToItself (devices : List PciDeviceDescription) (place : Nat) : Prop :=
  ∃ device, devices[place]? = some device ∧ device.deviceLocation.bus ≠ 0 ∧
    device.leadsTo device.deviceLocation.bus ∧
    ∀ bridge ∈ devices.take place, ¬ bridge.leadsTo device.deviceLocation.bus

/-- The bridges added so far are the ones of `done`. -/
def BridgesOf (done : List PciDeviceDescription) (bridgeList : List (Nat × PciDeviceDescription)) :
    Prop :=
  ∀ bus, pciSystemRetrieveParentForDevice bridgeList bus =
    done.findIdx? (·.leadsTo bus)

theorem bridgesOf_nil : BridgesOf [] [] := fun _ => rfl

theorem BridgesOf.snoc {done : List PciDeviceDescription}
    {bridgeList : List (Nat × PciDeviceDescription)} (h : BridgesOf done bridgeList)
    (device : PciDeviceDescription) :
    BridgesOf (done ++ [device]) (if device.header.layout = .pciToPci then
      bridgeList ++ [(done.length,device)] else bridgeList) := by
  intro bus
  rw [List.findIdx?_append,← h bus,List.findIdx?_singleton]
  by_cases hlayout : device.header.layout = .pciToPci
  · rw [if_pos hlayout]
    simp only [pciSystemRetrieveParentForDevice,List.find?_append]
    cases bridgeList.find? (fun bridge => bridge.2.header.secondaryBusNumber == bus) with
    | some bridge => simp
    | none =>
      by_cases hbus : device.header.secondaryBusNumber = bus
      · simp [PciDeviceDescription.leadsTo,hlayout,hbus]
      · simp [PciDeviceDescription.leadsTo,hbus]
  · rw [if_neg hlayout]
    simp [PciDeviceDescription.leadsTo,hlayout]

theorem Except.map_eq_ok {ε α β : Type} {f : α → β} {result : Except ε α} {b : β} :
    result.map f = .ok b ↔ ∃ a, result = .ok a ∧ f a = b := by
  cases result <;> simp [Except.map]

theorem Except.map_eq_error {ε α β : Type} {f : α → β} {result : Except ε α} {e : ε} :
    result.map f = .error e ↔ result = .error e := by
  cases result <;> simp [Except.map]

section Loop

variable {devices done : List PciDeviceDescription}
  {bridgeList : List (Nat × PciDeviceDescription)} {parents : List (Option Nat)}

/-- The bridge that the device at `place` gets, when it is looked for among the devices up to it. -/
def bridgeUpTo (devices : List PciDeviceDescription) (place : Nat)
    (device : PciDeviceDescription) : Option Nat :=
  (devices.take (place + 1)).findIdx? (·.leadsTo device.deviceLocation.bus)

theorem bridgeUpTo_append (rest : List PciDeviceDescription) (device : PciDeviceDescription)
    (i : Nat) (found : PciDeviceDescription) :
    bridgeUpTo (done ++ [device] ++ rest) ((done ++ [device]).length + i) found =
      bridgeUpTo (done ++ device :: rest) (done.length + (i + 1)) found := by
  rw [List.append_assoc,List.singleton_append,List.length_append,List.length_singleton,
    Nat.add_assoc,Nat.add_comm 1 i]

theorem bridgeUpTo_here (rest : List PciDeviceDescription) (device : PciDeviceDescription) :
    bridgeUpTo (done ++ device :: rest) done.length device =
      (done ++ [device]).findIdx? (·.leadsTo device.deviceLocation.bus) := by
  rw [bridgeUpTo,List.take_append,List.take_of_length_le (Nat.le_succ _),Nat.add_sub_cancel_left]
  rfl

theorem establishHierarchyLoop_ok {rest : List PciDeviceDescription}
    (hbridges : BridgesOf done bridgeList)
    (h : establishHierarchyLoop rest done.length bridgeList = .ok parents) :
    parents.length = rest.length ∧ ∀ i device, rest[i]? = some device →
      (device.deviceLocation.bus = 0 ∧ parents[i]? = some none) ∨
      (device.deviceLocation.bus ≠ 0 ∧ ∃ parent,
        bridgeUpTo (done ++ rest) (done.length + i) device = some parent ∧
        parents[i]? = some (some parent)) := by
  induction rest generalizing done bridgeList parents with
  | nil =>
    cases h
    exact ⟨rfl,fun i device hdevice => by simp at hdevice⟩
  | cons device rest ih =>
    have hsnoc := hbridges.snoc device
    rw [establishHierarchyLoop,hsnoc,← bridgeUpTo_here rest device,
      show done.length + 1 = (done ++ [device]).length by simp] at h
    have hlater {parent : Option Nat} {rests : List (Option Nat)}
        (hrest : establishHierarchyLoop rest (done ++ [device]).length
          (if device.header.layout = .pciToPci then bridgeList ++ [(done.length,device)]
            else bridgeList) = .ok rests)
        (hhere : (device.deviceLocation.bus = 0 ∧ parent = none) ∨
          (device.deviceLocation.bus ≠ 0 ∧
            bridgeUpTo (done ++ device :: rest) done.length device = parent ∧ parent.isSome)) :
        (parent :: rests).length = (device :: rest).length ∧
          ∀ i found, (device :: rest)[i]? = some found →
          (found.deviceLocation.bus = 0 ∧ (parent :: rests)[i]? = some none) ∨
          (found.deviceLocation.bus ≠ 0 ∧ ∃ place,
            bridgeUpTo (done ++ device :: rest) (done.length + i) found = some place ∧
            (parent :: rests)[i]? = some (some place)) := by
      obtain ⟨hlength,hplaces⟩ := ih hsnoc hrest
      refine ⟨by rw [List.length_cons,List.length_cons,hlength],fun i found hfound => ?_⟩
      cases i with
      | zero =>
        obtain rfl : device = found := by simpa using hfound
        rcases hhere with ⟨hzero,rfl⟩ | ⟨hbus,hparent,hsome⟩
        · exact .inl ⟨hzero,rfl⟩
        · obtain ⟨place,rfl⟩ := Option.isSome_iff_exists.mp hsome
          exact .inr ⟨hbus,place,hparent,rfl⟩
      | succ i =>
        rw [← bridgeUpTo_append]
        exact hplaces i found hfound
    by_cases hbus : device.deviceLocation.bus ≠ 0
    · rw [if_pos hbus] at h
      cases hparent : bridgeUpTo (done ++ device :: rest) done.length device with
      | none =>
        rw [hparent] at h
        cases h
      | some parent =>
        rw [hparent] at h
        obtain ⟨rests,hrest,rfl⟩ := Except.map_eq_ok.mp h
        exact hlater hrest (.inr ⟨hbus,hparent,rfl⟩)
    · rw [if_neg hbus] at h
      obtain ⟨rests,hrest,rfl⟩ := Except.map_eq_ok.mp h
      exact hlater hrest (.inl ⟨not_not.mp hbus,rfl⟩)

theorem establishHierarchyLoop_error {rest : List PciDeviceDescription} {place : Nat}
    (hbridges : BridgesOf done bridgeList)
    (h : establishHierarchyLoop rest done.length bridgeList = .error place) :
    ∃ i device, place = done.length + i ∧ rest[i]? = some device ∧
      device.deviceLocation.bus ≠ 0 ∧
      bridgeUpTo (done ++ rest) place device = none ∧
      ∀ k < i, ∀ earlier, rest[k]? = some earlier → earlier.deviceLocation.bus ≠ 0 →
        bridgeUpTo (done ++ rest) (done.length + k) earlier ≠ none := by
  induction rest generalizing done bridgeList place with
  | nil => cases h
  | cons device rest ih =>
    have hsnoc := hbridges.snoc device
    rw [establishHierarchyLoop,hsnoc,← bridgeUpTo_here rest device,
      show done.length + 1 = (done ++ [device]).length by simp] at h
    have hlater : establishHierarchyLoop rest (done ++ [device]).length
          (if device.header.layout = .pciToPci then bridgeList ++ [(done.length,device)]
            else bridgeList) = .error place →
        (device.deviceLocation.bus ≠ 0 →
          bridgeUpTo (done ++ device :: rest) done.length device ≠ none) →
        ∃ i found, place = done.length + i ∧ (device :: rest)[i]? = some found ∧
          found.deviceLocation.bus ≠ 0 ∧
          bridgeUpTo (done ++ device :: rest) place found = none ∧
          ∀ k < i, ∀ earlier, (device :: rest)[k]? = some earlier →
            earlier.deviceLocation.bus ≠ 0 →
            bridgeUpTo (done ++ device :: rest) (done.length + k) earlier ≠ none := by
      intro hrest hhere
      obtain ⟨i,found,hplace,hfound,hbus,hnone,hearlier⟩ := ih hsnoc hrest
      have hplace' : place = done.length + (i + 1) := by
        rw [hplace,List.length_append,List.length_singleton]
        omega
      refine ⟨i + 1,found,hplace',hfound,hbus,?_,?_⟩
      · rw [hplace',← bridgeUpTo_append,← hplace]
        exact hnone
      · intro k hk earlier hget hbus'
        cases k with
        | zero =>
          obtain rfl : device = earlier := by simpa using hget
          exact hhere hbus'
        | succ k =>
          rw [← bridgeUpTo_append]
          exact hearlier k (by omega) earlier hget hbus'
    by_cases hbus : device.deviceLocation.bus ≠ 0
    · rw [if_pos hbus] at h
      cases hparent : bridgeUpTo (done ++ device :: rest) done.length device with
      | none =>
        rw [hparent] at h
        cases h
        exact ⟨0,device,rfl,rfl,hbus,hparent,fun k hk => absurd hk (Nat.not_lt_zero k)⟩
      | some parent =>
        rw [hparent] at h
        exact hlater (Except.map_eq_error.mp h) (fun _ => by rw [hparent]; simp)
    · rw [if_neg hbus] at h
      exact hlater (Except.map_eq_error.mp h) (fun hne => absurd hne hbus)

end Loop

section Hierarchy

variable {devices : List PciDeviceDescription} {parents : List (Option Nat)} {place parent : Nat}
  {device : PciDeviceDescription}

theorem bridgeUpTo_eq_none : bridgeUpTo devices place device = none ↔
    ∀ bridge ∈ devices.take (place + 1), ¬ bridge.leadsTo device.deviceLocation.bus := by
  simp only [bridgeUpTo,List.findIdx?_eq_none_iff,Bool.not_eq_true]

theorem bridgeUpTo_eq_some (h : bridgeUpTo devices place device = some parent) :
    parent ≤ place ∧ ∃ bridge, devices[parent]? = some bridge ∧
      bridge.leadsTo device.deviceLocation.bus := by
  obtain ⟨hlt,hleads,_⟩ := List.findIdx?_eq_some_iff_getElem.mp h
  rw [List.length_take] at hlt
  rw [List.getElem_take] at hleads
  exact ⟨by omega,_,List.getElem?_eq_getElem (by omega),hleads⟩

theorem bridgeUpTo_eq_place (hdevice : devices[place]? = some device) :
    bridgeUpTo devices place device = some place ↔
      device.leadsTo device.deviceLocation.bus ∧
        ∀ bridge ∈ devices.take place, ¬ bridge.leadsTo device.deviceLocation.bus := by
  obtain ⟨hlt,hget⟩ := List.getElem?_eq_some_iff.mp hdevice
  rw [bridgeUpTo,List.take_add_one,hdevice,Option.toList_some,List.findIdx?_append,
    Option.or_eq_some_iff]
  constructor
  · rintro (hfound | ⟨hnone,hfound⟩)
    · obtain ⟨hlt',_⟩ := List.findIdx?_eq_some_iff_getElem.mp hfound
      rw [List.length_take] at hlt'
      omega
    · rw [List.findIdx?_singleton] at hfound
      split at hfound
      · rename_i hleads
        exact ⟨hleads,by simpa only [List.findIdx?_eq_none_iff,Bool.not_eq_true] using hnone⟩
      · cases hfound
  · intro ⟨hleads,hnone⟩
    refine .inr ⟨by simpa only [List.findIdx?_eq_none_iff,Bool.not_eq_true] using hnone,?_⟩
    rw [List.findIdx?_singleton,if_pos hleads,List.length_take,Nat.min_eq_left (by omega)]
    simp

theorem establishHierarchy_parent (h : pciSystemEstablishHierarchy devices = .ok parents)
    (hdevice : devices[place]? = some device) :
    (device.deviceLocation.bus = 0 ∧ parents[place]? = some none) ∨
    (device.deviceLocation.bus ≠ 0 ∧ ∃ parent,
      bridgeUpTo devices place device = some parent ∧ IsParent parents parent place) := by
  have hplaces := (establishHierarchyLoop_ok bridgesOf_nil h).2 place device hdevice
  rw [List.nil_append,List.length_nil,Nat.zero_add] at hplaces
  exact hplaces

theorem establishHierarchy_isParent (h : pciSystemEstablishHierarchy devices = .ok parents)
    (hparent : IsParent parents parent place) : ∃ device, devices[place]? = some device ∧
      device.deviceLocation.bus ≠ 0 ∧ bridgeUpTo devices place device = some parent := by
  have hlength := (establishHierarchyLoop_ok bridgesOf_nil h).1
  obtain ⟨hlt,_⟩ := List.getElem?_eq_some_iff.mp hparent
  have hdevice : devices[place]? = some devices[place] := List.getElem?_eq_getElem (by omega)
  refine ⟨_,hdevice,?_⟩
  rcases establishHierarchy_parent h hdevice with ⟨_,hnone⟩ | ⟨hbus,parent',hfound,hparent'⟩
  · rw [IsParent,hnone] at hparent
    cases hparent
  · rw [IsParent,hparent'] at hparent
    cases hparent
    exact ⟨hbus,hfound⟩

theorem establishHierarchy_ok_served (h : pciSystemEstablishHierarchy devices = .ok parents) :
    ¬ WithoutEarlierBridge devices place := by
  intro ⟨device,hdevice,hbus,hnone⟩
  rcases establishHierarchy_parent h hdevice with ⟨hzero,_⟩ | ⟨_,parent,hfound,_⟩
  · exact hbus hzero
  · rw [bridgeUpTo_eq_none.mpr hnone] at hfound
    cases hfound

theorem establishHierarchy_error (h : pciSystemEstablishHierarchy devices = .error place) :
    WithoutEarlierBridge devices place ∧
      ∀ earlier < place, ¬ WithoutEarlierBridge devices earlier := by
  obtain ⟨i,device,hplace,hdevice,hbus,hnone,hearlier⟩ :=
    establishHierarchyLoop_error bridgesOf_nil h
  rw [List.length_nil,Nat.zero_add] at hplace
  subst hplace
  refine ⟨⟨device,hdevice,hbus,bridgeUpTo_eq_none.mp hnone⟩,?_⟩
  intro earlier hlt ⟨found,hfound,hbus',hnone'⟩
  have hserved := hearlier earlier hlt found hfound hbus'
  rw [List.nil_append,List.length_nil,Nat.zero_add] at hserved
  exact hserved (bridgeUpTo_eq_none.mpr hnone')

/-- Bridges come before what they lead to, so that only a bridge that leads to itself makes a
cycle. -/
theorem establishHierarchy_parent_lt (h : pciSystemEstablishHierarchy devices = .ok parents)
    (hself : ∀ place, ¬ FirstLeadsToItself devices place)
    (hparent : IsParent parents parent place) : parent < place := by
  obtain ⟨device,hdevice,hbus,hfound⟩ := establishHierarchy_isParent h hparent
  rcases Nat.lt_or_eq_of_le (bridgeUpTo_eq_some hfound).1 with hlt | rfl
  · exact hlt
  · have hleads := (bridgeUpTo_eq_place hdevice).mp hfound
    exact absurd ⟨device,hdevice,hbus,hleads⟩ (hself parent)

theorem establishHierarchy_hierarchyOf (h : pciSystemEstablishHierarchy devices = .ok parents)
    (hself : ∀ place, ¬ FirstLeadsToItself devices place) : HierarchyOf devices parents := by
  have hlt : ∀ {parent place}, IsParent parents parent place → parent < place :=
    fun hparent => establishHierarchy_parent_lt h hself hparent
  constructor
  · intro place hcycle
    have hdown : ∀ {a b}, Relation.TransGen (IsParent parents) a b → a < b := by
      intro a b hab
      induction hab with
      | single hstep => exact hlt hstep
      | tail _ hstep ih => exact Nat.lt_trans ih (hlt hstep)
    exact Nat.lt_irrefl place (hdown hcycle)
  · intro place
    induction place using Nat.strong_induction_on with
    | _ place ih =>
      by_cases hparent : ∃ parent, IsParent parents parent place
      · obtain ⟨parent,hparent⟩ := hparent
        obtain ⟨device,_,_,hfound⟩ := establishHierarchy_isParent h hparent
        obtain ⟨_,bridge,hbridge,_⟩ := bridgeUpTo_eq_some hfound
        obtain ⟨fuel,chain,hchain⟩ := ih parent (hlt hparent)
        refine ⟨fuel + 1,bridge :: chain,?_⟩
        have hget : parents[place]? = some (some parent) := hparent
        simp only [parentChain,hget,hbridge,hchain]
        rfl
      · refine ⟨1,[],?_⟩
        rw [parentChain]
        split
        · rename_i parent hget
          exact absurd ⟨parent,hget⟩ hparent
        · rfl
  · intro place device hdevice hbehind
    rcases establishHierarchy_parent h hdevice with ⟨hzero,_⟩ | ⟨_,parent,hfound,hparent⟩
    · exact absurd hzero hbehind.1
    · obtain ⟨_,bridge,hbridge,hleads⟩ := bridgeUpTo_eq_some hfound
      exact ⟨parent,bridge,hparent,hbridge,hleads⟩

end Hierarchy

/-- The function leaves the hierarchy exactly when the first device without a bridge before it, if
there is one, has none at all, and, if there is none, no bridge is the first that leads to the bus
it is on. -/
theorem establishesHierarchy_iff_bridges_first (devices : List PciDeviceDescription) :
    EstablishesHierarchy devices ↔
      (∀ place, WithoutEarlierBridge devices place →
        (∀ earlier < place, ¬ WithoutEarlierBridge devices earlier) →
        ∀ device, devices[place]? = some device → ¬ BehindBridge devices device) ∧
      ((∀ place, ¬ WithoutEarlierBridge devices place) →
        ∀ place, ¬ FirstLeadsToItself devices place) := by
  unfold EstablishesHierarchy
  cases h : pciSystemEstablishHierarchy devices with
  | ok parents =>
    constructor
    · intro hof
      refine ⟨fun place hwithout => absurd hwithout (establishHierarchy_ok_served h),?_⟩
      intro _ place ⟨device,hdevice,hbus,hleads⟩
      have hself := (bridgeUpTo_eq_place hdevice).mpr hleads
      rcases establishHierarchy_parent h hdevice with ⟨hzero,_⟩ | ⟨_,parent,hfound,hparent⟩
      · exact hbus hzero
      · rw [hself] at hfound
        cases hfound
        exact hof.acyclic place (.single hparent)
    · intro hcond
      exact establishHierarchy_hierarchyOf h
        (hcond.2 (fun place => establishHierarchy_ok_served h))
  | error place =>
    obtain ⟨hwithout,hearlier⟩ := establishHierarchy_error h
    constructor
    · intro hbehind
      refine ⟨fun place' hwithout' hearlier' => ?_,fun hall => absurd hwithout (hall place)⟩
      rcases Nat.lt_trichotomy place' place with hlt | rfl | hgt
      · exact absurd hwithout' (hearlier place' hlt)
      · exact hbehind
      · exact absurd hwithout (hearlier' place hgt)
    · intro hcond
      exact hcond.1 place hwithout hearlier

/-- A bridge at (1.0.0) that names bus 1 as its secondary bus becomes its own parent; a device on
bus 1 in front of the bridge to bus 1 stops the function. -/
theorem establishesHierarchy_fails :
    (¬ EstablishesHierarchy [⟨⟨1,0,0⟩,⟨0x8086,0x244E,6,4,.pciToPci,1,1⟩⟩]) ∧
    ¬ EstablishesHierarchy [⟨⟨1,0,0⟩,⟨0x8086,0x100E,2,0,.device,1,0⟩⟩,
      ⟨⟨0,30,0⟩,⟨0x8086,0x244E,6,4,.pciToPci,1,1⟩⟩] := by
  constructor
  · intro h
    have hcycle : IsParent [some 0] 0 0 := rfl
    exact h.acyclic 0 (.single hcycle)
  · intro h
    exact h _ rfl ⟨by decide,_,List.mem_cons_of_mem _ List.mem_cons_self,by decide⟩

/-- The routing entry is for the device and for the pin it uses. -/
def IoApicPrtEntry.matching (entry : IoApicPrtEntry) (device : PciDeviceDescription) : Bool :=
  entry.deviceLocation.bus == device.deviceLocation.bus &&
  entry.deviceLocation.device == device.deviceLocation.device &&
  (entry.deviceLocation.function == 255 ||
    entry.deviceLocation.function == device.deviceLocation.function) &&
  entry.interruptPin == device.header.interruptPin

/-- The loop over the parents. The last of them, which has no parent itself, is left out. -/
def accumulatedOffset : Nat → List PciDeviceDescription → Nat
  | offset,[] => offset
  | offset,[_] => offset
  | offset,bridge :: next :: rest =>
    accumulatedOffset ((offset + bridge.deviceLocation.function) % 4) (next :: rest)

/-- The routing entries are the first `NoOfPrtEntries` of the table, `parents` is the chain of the
bridges above the device. -/
def ioApicGetInterruptLineForPciDevice (prtEntries : List IoApicPrtEntry)
    (pciDevice : PciDeviceDescription) (parents : List PciDeviceDescription) : Nat :=
  match prtEntries.find? (·.matching pciDevice) with
  | some entry => entry.ioApicLine
  | none => 0x10 + accumulatedOffset pciDevice.header.interruptPin parents

/-- The pin, counted from zero, behind which `child` is seen after every bridge is crossed: each
crossing adds the number that the device below the bridge has on the secondary bus. -/
def swizzledPin : Nat → PciDeviceDescription → List PciDeviceDescription → Nat
  | pin,_,[] => pin
  | pin,child,bridge :: rest => swizzledPin ((pin + child.deviceLocation.device) % 4) bridge rest

/-- The functions of the bridges below the last one. -/
def bridgeFunctions (bridges : List PciDeviceDescription) : Nat :=
  (bridges.dropLast.map (·.deviceLocation.function)).sum

/-- The device numbers of everything below the last bridge. -/
def childDevices (device : PciDeviceDescription) (bridges : List PciDeviceDescription) : Nat :=
  ((device :: bridges).dropLast.map (·.deviceLocation.device)).sum

theorem accumulatedOffset_many (offset : Nat) (bridge next : PciDeviceDescription)
    (rest : List PciDeviceDescription) :
    accumulatedOffset offset (bridge :: next :: rest) =
      (offset + bridgeFunctions (bridge :: next :: rest)) % 4 := by
  induction rest generalizing offset bridge next with
  | nil => simp [accumulatedOffset,bridgeFunctions]
  | cons last rest ih =>
    rw [accumulatedOffset,ih]
    simp only [bridgeFunctions,List.dropLast_cons_cons,List.map_cons,List.sum_cons]
    omega

theorem swizzledPin_cons (pin : Nat) (child bridge : PciDeviceDescription)
    (rest : List PciDeviceDescription) :
    swizzledPin pin child (bridge :: rest) = (pin + childDevices child (bridge :: rest)) % 4 := by
  induction rest generalizing pin child bridge with
  | nil => simp [swizzledPin,childDevices]
  | cons next rest ih =>
    rw [swizzledPin,ih]
    simp only [childDevices,List.dropLast_cons_cons,List.map_cons,List.sum_cons]
    omega

/-- The line is the base line 0x10 plus the swizzled pin exactly in these cases, the pin being
counted from one (the first part) or from zero (the second). -/
theorem interruptLine_swizzled_iff (prtEntries : List IoApicPrtEntry)
    (device : PciDeviceDescription) (bridges : List PciDeviceDescription)
    (hpin : 1 ≤ device.header.interruptPin ∧ device.header.interruptPin ≤ 4)
    (hrouted : ∀ entry ∈ prtEntries, ¬ entry.matching device) :
    (ioApicGetInterruptLineForPciDevice prtEntries device bridges =
        0x10 + (swizzledPin (device.header.interruptPin - 1) device bridges + 1) ↔
      bridges.length = 0 ∨
      bridges.length = 1 ∧ device.deviceLocation.device % 4 = 0 ∨
      2 ≤ bridges.length ∧ bridgeFunctions bridges % 4 = childDevices device bridges % 4 ∧
        (device.header.interruptPin + bridgeFunctions bridges) % 4 ≠ 0) ∧
    (ioApicGetInterruptLineForPciDevice prtEntries device bridges =
        0x10 + swizzledPin (device.header.interruptPin - 1) device bridges ↔
      bridges.length = 1 ∧ device.header.interruptPin ≠ 4 ∧
        device.deviceLocation.device % 4 = 1 ∨
      2 ≤ bridges.length ∧
        (bridgeFunctions bridges + 1) % 4 = childDevices device bridges % 4) := by
  have hnone : prtEntries.find? (·.matching device) = none := by
    rw [List.find?_eq_none]
    exact hrouted
  rw [ioApicGetInterruptLineForPciDevice,hnone]
  dsimp only
  match bridges with
  | [] =>
    rw [accumulatedOffset,swizzledPin,List.length_nil]
    constructor <;> omega
  | [bridge] =>
    rw [accumulatedOffset,swizzledPin,swizzledPin,List.length_singleton]
    constructor <;> omega
  | bridge :: next :: rest =>
    rw [accumulatedOffset_many,swizzledPin_cons]
    simp only [List.length_cons]
    constructor <;> omega

/-- A device at (2.1.0) that uses INTA, behind the bridges at (1.0.1) and (0.30.0): INTB. -/
theorem interruptLine_behind_bridge :
    ioApicGetInterruptLineForPciDevice [] ⟨⟨2,1,0⟩,⟨0x8086,0x100E,2,0,.device,1,0⟩⟩
        [⟨⟨1,0,1⟩,⟨0x8086,0x244E,6,4,.pciToPci,1,2⟩⟩,⟨⟨0,30,0⟩,⟨0x8086,0x244E,6,4,.pciToPci,1,1⟩⟩] =
      0x10 + (swizzledPin 0 ⟨⟨2,1,0⟩,⟨0x8086,0x100E,2,0,.device,1,0⟩⟩
        [⟨⟨1,0,1⟩,⟨0x8086,0x244E,6,4,.pciToPci,1,2⟩⟩,
          ⟨⟨0,30,0⟩,⟨0x8086,0x244E,6,4,.pciToPci,1,1⟩⟩] + 1) :=
  (interruptLine_swizzled_iff [] ⟨⟨2,1,0⟩,⟨0x8086,0x100E,2,0,.device,1,0⟩⟩
    [⟨⟨1,0,1⟩,⟨0x8086,0x244E,6,4,.pciToPci,1,2⟩⟩,⟨⟨0,30,0⟩,⟨0x8086,0x244E,6,4,.pciToPci,1,1⟩⟩]
    ⟨by decide,by decide⟩ (fun _ h => absurd h List.not_mem_nil)).1.mpr (by decide)

/-- The device at (1.2.0) uses INTA behind one bridge: the swizzled pin is INTC, and the line is
that of INTA. -/
theorem interruptLine_not_swizzled :
    swizzledPin 0 ⟨⟨1,2,0⟩,⟨0x8086,0x100E,2,0,.device,1,0⟩⟩
        [⟨⟨0,30,0⟩,⟨0x8086,0x244E,6,4,.pciToPci,1,1⟩⟩] = 2 ∧
      ioApicGetInterruptLineForPciDevice [] ⟨⟨1,2,0⟩,⟨0x8086,0x100E,2,0,.device,1,0⟩⟩
        [⟨⟨0,30,0⟩,⟨0x8086,0x244E,6,4,.pciToPci,1,1⟩⟩] = 0x11 ∧
      (0x11 : Nat) ≠ 0x10 + (2 + 1) ∧ (0x11 : Nat) ≠ 0x10 + 2 := by decide

end Hal9000
