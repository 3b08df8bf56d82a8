import Hal9000.Shell.CmdInterpreter
import Hal9000.Shell.LineEditor

/-!
# Boot modules

What the boot loader leaves in memory is copied to the heap, module by module; one that cannot be
mapped is passed over, and its place in the array stays zeroed. Modules are found by their names.
-/

namespace Hal9000

def bootModuleMaxNameLen : Nat := 100

structure MultibootModuleInformation where
  moduleStartPhysAddr : BitVec 32
  moduleEndPhysAddr : BitVec 32
  stringPhysAddr : BitVec 32

/-- The size of a module, in which a `DWORD` may wrap. -/
def MultibootModuleInformation.length (multibootModule : MultibootModuleInformation) : Nat :=
  (multibootModule.moduleEndPhysAddr - multibootModule.moduleStartPhysAddr).toNat

/-- `BOOT_MODULE_INFORMATION`; a pointer is what it points to, and `none` is `NULL`. -/
structure BootModuleInformation where
  baseAddress : Option (List Nat)
  length : Nat
  name : Option (List Nat)

def bootModuleZero : BootModuleInformation := ⟨none,0,none⟩

structure BootModuleSystemData where
  modules : List BootModuleInformation
  numberOfModules : Nat

def bootModulesPreinit : BootModuleSystemData := ⟨[],0⟩

inductive BootStatus
  | invalidParameter1
  | invalidParameter2
  | invalidParameter3
  | heapInsufficientResources
  | memoryCannotBeMapped
  | noDataAvailable
  | elementNotFound
  deriving DecidableEq

/-- Which of the mappings and allocations for one module succeed. -/
structure ModuleOutcome where
  stringMapped : Bool
  nameAllocated : Bool
  dataMapped : Bool
  dataAllocated : Bool

/-- Physical memory, and what else the functions meet with. -/
structure BootEnvironment where
  lib : StringFunctions
  memory : Nat → BitVec 8
  highestPhysicalAddress : Nat
  arrayAllocated : Bool
  arrayMapped : Bool
  outcome : Nat → ModuleOutcome

/-- `memcpy`; no result where it leaves its arguments. -/
def memcpy (destination source : List Nat) (count : Nat) : Option (List Nat) :=
  if count ≤ destination.length ∧ count ≤ source.length then
    some (source.take count ++ destination.drop count)
  else none

namespace BootEnvironment

variable (env : BootEnvironment)

/-- The bytes of a physical range. -/
def bytes (physicalAddress size : Nat) : List Nat :=
  (List.range size).map fun k => (env.memory (physicalAddress + k)).toNat

/-- The range of pages ends below the highest physical address. -/
def InMemory (physicalAddress size : Nat) : Prop :=
  alignAddressLower physicalAddress pageSize <
    ptrDiff env.highestPhysicalAddress (alignAddressUpper
      ((size + addressOffset physicalAddress pageSize) % qwordModulus) pageSize)

instance (physicalAddress size : Nat) : Decidable (env.InMemory physicalAddress size) :=
  inferInstanceAs (Decidable (_ < _))

/-- `MmuMapSystemMemory`; whether there is a place for the mapping is given. -/
def mmuMapSystemMemory (physicalAddress size : Nat) (mapped : Bool) :
    Option (Option (List Nat)) := do
  assert (size != 0)
  assert (decide (env.InMemory physicalAddress size))
  some (if mapped then some (env.bytes physicalAddress size) else none)

/-- The name of a module: the string without its last character, which the loader has added. -/
def copyName (i : Nat) (multibootModule : MultibootModuleInformation) :
    Option (Except BootStatus (Option (List Nat))) :=
  if multibootModule.stringPhysAddr = 0 then some (.ok none)
  else do
    match ← env.mmuMapSystemMemory multibootModule.stringPhysAddr.toNat bootModuleMaxNameLen
        (env.outcome i).stringMapped with
    | none => some (.error .memoryCannotBeMapped)
    | some pMappedString =>
      let modNameLen := strlenS env.lib pMappedString bootModuleMaxNameLen
      assert (modNameLen != env.lib.invalidStringSize)
      if (env.outcome i).nameAllocated then
        -- an empty string makes the last index the greatest `DWORD`
        let last := (modNameLen + maxDword) % 2 ^ 32
        let name ← memcpy (List.replicate modNameLen 0) pMappedString last
        let name ← storeByte name last 0
        some (.ok (some name))
      else some (.error .heapInsufficientResources)

/-- `_MapSingleModule`, of the module with an index. -/
def mapSingleModule (i : Nat) (multibootModule : MultibootModuleInformation) :
    Option (Except BootStatus BootModuleInformation) := do
  match ← env.copyName i multibootModule with
  | .error status => some (.error status)
  | .ok name =>
    let length := multibootModule.length
    if length = 0 then some (.error .noDataAvailable)
    else
      match ← env.mmuMapSystemMemory multibootModule.moduleStartPhysAddr.toNat length
          (env.outcome i).dataMapped with
      | none => some (.error .memoryCannotBeMapped)
      | some pModuleData => do
        assert (decide (length + 1 ≤ maxDword))
        if (env.outcome i).dataAllocated then
          let baseAddress ← memcpy (List.replicate length 0) pModuleData length
          some (.ok ⟨some baseAddress,length,name⟩)
        else some (.error .heapInsufficientResources)

/-- The loop over the descriptors that are left, from an index on. -/
def mapModules : Nat → List MultibootModuleInformation → List BootModuleInformation →
    Option (List BootModuleInformation)
  | _,[],modules => some modules
  | i,multibootModule :: rest,modules => do
    match ← env.mapSingleModule i multibootModule with
    | .error _ => mapModules (i + 1) rest modules
    | .ok mapped =>
      if i < modules.length then mapModules (i + 1) rest (modules.set i mapped) else none

/-- `BootModulesInit`, of the descriptors at an address. The size of the array is a `DWORD` for the
heap. -/
def bootModulesInit (bootModulesStart : Nat) (descriptors : List MultibootModuleInformation) :
    Option (Except BootStatus Unit × BootModuleSystemData) :=
  let numberOfModules := descriptors.length
  if numberOfModules = 0 then some (.ok (),bootModulesPreinit)
  else if bootModulesStart = 0 then some (.error .invalidParameter1,bootModulesPreinit)
  else if env.arrayAllocated then do
    let pModuleInformation := List.replicate (numberOfModules * 24 % 2 ^ 32 / 24) bootModuleZero
    match ← env.mmuMapSystemMemory bootModulesStart (numberOfModules * 16) env.arrayMapped with
    | none =>
      -- `_BootModulesUninitialize` goes over all entries, which are zeroed
      if numberOfModules ≤ pModuleInformation.length then
        some (.error .memoryCannotBeMapped,bootModulesPreinit)
      else none
    | some _ =>
      let modules ← env.mapModules 0 descriptors pModuleInformation
      some (.ok (),⟨modules,numberOfModules⟩)
  -- `_BootModulesUninitialize` asserts that there is an array
  else none

end BootEnvironment

/-- The loop of `BootModuleGet` over the entries that are left; it reads the names. -/
def findModule (moduleName : List Char) : List BootModuleInformation → Nat →
    Option (Except BootStatus (Option (List Nat) × Nat))
  | _,0 => some (.error .elementNotFound)
  | [],_ + 1 => none
  | bootModule :: rest,left + 1 => do
    let name ← bootModule.name
    if stricmpEqual moduleName ((cString name).map Char.ofNat) then
      some (.ok (bootModule.baseAddress,bootModule.length))
    else findModule moduleName rest left

/-- `BootModuleGet`; the other two arguments say whether there is a place for the results. -/
def bootModuleGet (data : BootModuleSystemData) (moduleName : Option (List Char))
    (baseAddress moduleLength : Bool) : Option (Except BootStatus (Option (List Nat) × Nat)) :=
  match moduleName with
  | none => some (.error .invalidParameter1)
  | some moduleName =>
    if !baseAddress then some (.error .invalidParameter2)
    else if !moduleLength then some (.error .invalidParameter3)
    else findModule moduleName data.modules data.numberOfModules

namespace BootEnvironment

variable (env : BootEnvironment)

/-- The string of a module. -/
def moduleString (multibootModule : MultibootModuleInformation) : List Nat :=
  cString (env.bytes multibootModule.stringPhysAddr.toNat bootModuleMaxNameLen)

def contents (multibootModule : MultibootModuleInformation) : List Nat :=
  env.bytes multibootModule.moduleStartPhysAddr.toNat multibootModule.length

/-- What is kept of a module: its contents, and its name when it has one. -/
def moduleInformation (multibootModule : MultibootModuleInformation) : BootModuleInformation where
  baseAddress := some (env.contents multibootModule)
  length := multibootModule.length
  name :=
    if multibootModule.stringPhysAddr = 0 then none
    else some ((env.moduleString multibootModule).dropLast ++ [0])

/-- The descriptors are there, nothing fails for the module, and it is not empty. -/
def couldMap (bootModulesStart i : Nat) (multibootModule : MultibootModuleInformation) : Bool :=
  bootModulesStart != 0 && env.arrayAllocated && env.arrayMapped &&
    (multibootModule.stringPhysAddr == 0 ||
      (env.outcome i).stringMapped && (env.outcome i).nameAllocated) &&
    multibootModule.length != 0 && (env.outcome i).dataMapped && (env.outcome i).dataAllocated

def isNamed (moduleName : List Char) (multibootModule : MultibootModuleInformation) : Bool :=
  multibootModule.stringPhysAddr != 0 &&
    stricmpEqual moduleName ((env.moduleString multibootModule).dropLast.map Char.ofNat)

/-- The answer for a name, from the descriptors with their indices. -/
def firstModule (bootModulesStart : Nat) (moduleName : List Char)
    (descriptors : List (MultibootModuleInformation × Nat)) :
    Except BootStatus (Option (List Nat) × Nat) :=
  match descriptors.find? fun p =>
      env.couldMap bootModulesStart p.2 p.1 && env.isNamed moduleName p.1 with
  | some p => .ok (some (env.contents p.1),p.1.length)
  | none => .error .elementNotFound

/-- Every module that could be mapped is kept in its place, and every name is answered. -/
def KeepsModules (bootModulesStart : Nat) (descriptors : List MultibootModuleInformation) : Prop :=
  ∃ status data, env.bootModulesInit bootModulesStart descriptors = some (status,data) ∧
    (∀ i multibootModule, descriptors[i]? = some multibootModule →
      env.couldMap bootModulesStart i multibootModule →
      data.modules[i]? = some (env.moduleInformation multibootModule)) ∧
    ∀ moduleName, bootModuleGet data (some moduleName) true true =
      some (env.firstModule bootModulesStart moduleName descriptors.zipIdx)

/-- A module is mapped under a name: the string is not empty and ends in time, and nothing fails. -/
structure MapsNamed (i : Nat) (multibootModule : MultibootModuleInformation) : Prop where
  string : multibootModule.stringPhysAddr ≠ 0
  stringInMemory : env.InMemory multibootModule.stringPhysAddr.toNat bootModuleMaxNameLen
  stringMapped : (env.outcome i).stringMapped = true
  terminated : (env.moduleString multibootModule).length < bootModuleMaxNameLen
  notEmpty : env.moduleString multibootModule ≠ []
  nameAllocated : (env.outcome i).nameAllocated = true
  length : multibootModule.length ≠ 0
  dataInMemory : env.InMemory multibootModule.moduleStartPhysAddr.toNat multibootModule.length
  dataMapped : (env.outcome i).dataMapped = true
  fits : multibootModule.length + 1 ≤ maxDword
  dataAllocated : (env.outcome i).dataAllocated = true

section Modules

variable {env : BootEnvironment} {i : Nat} {multibootModule : MultibootModuleInformation}

@[simp] theorem length_bytes (env : BootEnvironment) (physicalAddress size : Nat) :
    (env.bytes physicalAddress size).length = size := by
  simp [bytes]

theorem mmuMapSystemMemory_eq_some {physicalAddress size : Nat} {mapped : Bool}
    {result : Option (List Nat)} :
    env.mmuMapSystemMemory physicalAddress size mapped = some result ↔
      size ≠ 0 ∧ env.InMemory physicalAddress size ∧
        (if mapped then some (env.bytes physicalAddress size) else none) = result := by
  simp [mmuMapSystemMemory,Option.bind_eq_some_iff]

theorem strlenS_moduleString (env : BootEnvironment) (lib : StringFunctions)
    (multibootModule : MultibootModuleInformation) :
    strlenS lib (env.bytes multibootModule.stringPhysAddr.toNat bootModuleMaxNameLen)
        bootModuleMaxNameLen =
      if (env.moduleString multibootModule).length < bootModuleMaxNameLen then
        (env.moduleString multibootModule).length
      else lib.invalidStringSize := by
  have hlength := env.length_bytes multibootModule.stringPhysAddr.toNat bootModuleMaxNameLen
  have hall := List.take_of_length_le hlength.le
  rw [strlenS,hall]
  exact if_congr (by rw [zero_mem_iff,length_bytes,moduleString]) rfl rfl

theorem memcpy_name {bytes : List Nat} {k : Nat} (hk : (cString bytes).length = k + 1) :
    memcpy (List.replicate (k + 1) 0) bytes k = some ((cString bytes).dropLast ++ [0]) := by
  have hshort : (cString bytes).length ≤ bytes.length := (List.takeWhile_sublist _).length_le
  have hfront : bytes.take k = (cString bytes).dropLast := by
    rw [List.dropLast_eq_take,hk,Nat.add_sub_cancel]
    obtain ⟨rest,hrest⟩ := List.takeWhile_prefix (l := bytes) (· ≠ 0)
    conv_lhs => rw [← hrest]
    exact List.take_append_of_le_length (by rw [← cString,hk]; omega)
  rw [memcpy,if_pos (by simp; omega),hfront,List.drop_replicate,Nat.add_sub_cancel_left]
  rfl

theorem copyName_of_mapsNamed (hlib : env.lib.Documented) (h : env.MapsNamed i multibootModule) :
    env.copyName i multibootModule =
      some (.ok (some ((env.moduleString multibootModule).dropLast ++ [0]))) := by
  have hmap := mmuMapSystemMemory_eq_some.mpr
    ⟨(by decide : bootModuleMaxNameLen ≠ 0),h.stringInMemory,if_pos h.stringMapped⟩
  have hstrlen := strlenS_moduleString env env.lib multibootModule
  rw [if_pos h.terminated] at hstrlen
  have hlength := h.terminated
  obtain ⟨k,hk⟩ := Nat.exists_eq_succ_of_ne_zero (List.length_pos_iff.mpr h.notEmpty).ne'
  rw [hk] at hstrlen hlength
  rw [bootModuleMaxNameLen] at hlength
  have hinvalid := hlib.invalid.1
  have hvalid : assert (k + 1 != env.lib.invalidStringSize) = some () := by
    have hne : k + 1 ≠ env.lib.invalidStringSize := by omega
    simp [hne]
  have hlast : (k + 1 + maxDword) % 2 ^ 32 = k := by
    rw [maxDword]
    omega
  have hcopy : memcpy (List.replicate (k + 1) 0)
      (env.bytes multibootModule.stringPhysAddr.toNat bootModuleMaxNameLen) k =
        some ((env.moduleString multibootModule).dropLast ++ [0]) := memcpy_name hk
  have hstore := storeByte_append (env.moduleString multibootModule).dropLast 0 0 []
  rw [List.length_dropLast,hk,Nat.succ_sub_one] at hstore
  rw [copyName,if_neg h.string,hmap]
  simp only [Option.bind_eq_bind,Option.bind_some,hstrlen,hvalid,h.nameAllocated,hlast,hcopy,hstore,
    if_true]

theorem memcpy_empty (source : List Nat) :
    memcpy (List.replicate 0 0) source ((0 + maxDword) % 2 ^ 32) = none := by
  rw [memcpy,if_neg]
  simp [maxDword]

theorem copyName_named {name : List Nat}
    (h : env.copyName i multibootModule = some (.ok (some name))) :
    multibootModule.stringPhysAddr ≠ 0 ∧
      env.InMemory multibootModule.stringPhysAddr.toNat bootModuleMaxNameLen ∧
      (env.outcome i).stringMapped = true ∧
      (env.moduleString multibootModule).length < bootModuleMaxNameLen ∧
      env.moduleString multibootModule ≠ [] ∧ (env.outcome i).nameAllocated = true := by
  rw [copyName] at h
  by_cases hstring : multibootModule.stringPhysAddr = 0
  · rw [if_pos hstring] at h
    simp at h
  · rw [if_neg hstring] at h
    obtain ⟨result,hmap,h⟩ := Option.bind_eq_some_iff.mp h
    obtain ⟨-,hmemory,hresult⟩ := mmuMapSystemMemory_eq_some.mp hmap
    by_cases hmapped : (env.outcome i).stringMapped = true
    · rw [if_pos hmapped] at hresult
      rw [← hresult] at h
      simp only [strlenS_moduleString] at h
      obtain ⟨_,hvalid,h⟩ := Option.bind_eq_some_iff.mp h
      by_cases hlength : (env.moduleString multibootModule).length < bootModuleMaxNameLen
      · rw [if_pos hlength] at h
        by_cases hallocated : (env.outcome i).nameAllocated = true
        · refine ⟨hstring,hmemory,hmapped,hlength,?_,hallocated⟩
          intro hempty
          rw [if_pos hallocated,hempty,List.length_nil,memcpy_empty] at h
          cases h
        · rw [if_neg hallocated] at h
          simp at h
      · rw [if_neg hlength] at hvalid
        simp at hvalid
    · rw [if_neg hmapped] at hresult
      rw [← hresult] at h
      simp at h

theorem mapSingleModule_of_mapsNamed (hlib : env.lib.Documented)
    (h : env.MapsNamed i multibootModule) :
    env.mapSingleModule i multibootModule = some (.ok (env.moduleInformation multibootModule)) := by
  have hmap := mmuMapSystemMemory_eq_some.mpr ⟨h.length,h.dataInMemory,if_pos h.dataMapped⟩
  have hfits : assert (decide (multibootModule.length + 1 ≤ maxDword)) = some () := by
    simp [h.fits]
  have hcopy : memcpy (List.replicate multibootModule.length 0) (env.contents multibootModule)
      multibootModule.length = some (env.contents multibootModule) := by
    have hlength : (env.contents multibootModule).length = multibootModule.length :=
      env.length_bytes _ _
    rw [memcpy,if_pos (by simp [hlength]),List.take_of_length_le hlength.le]
    simp
  rw [mapSingleModule,copyName_of_mapsNamed hlib h]
  simp only [Option.bind_eq_bind,Option.bind_some]
  rw [if_neg h.length,hmap]
  simp only [Option.bind_some,hfits,h.dataAllocated,if_true]
  rw [← contents,hcopy,moduleInformation,if_neg h.string]
  rfl

theorem mapsNamed_of_mapSingleModule {entry : BootModuleInformation}
    (h : env.mapSingleModule i multibootModule = some (.ok entry)) (hname : entry.name ≠ none) :
    env.MapsNamed i multibootModule := by
  obtain ⟨copied,hcopied,h⟩ := Option.bind_eq_some_iff.mp h
  cases copied with
  | error status => simp at h
  | ok name =>
    change (if multibootModule.length = 0 then _ else _) = _ at h
    by_cases hlength : multibootModule.length = 0
    · rw [if_pos hlength] at h
      simp at h
    · rw [if_neg hlength] at h
      obtain ⟨result,hmap,h⟩ := Option.bind_eq_some_iff.mp h
      obtain ⟨-,hmemory,hresult⟩ := mmuMapSystemMemory_eq_some.mp hmap
      by_cases hmapped : (env.outcome i).dataMapped = true
      · rw [if_pos hmapped] at hresult
        rw [← hresult] at h
        obtain ⟨_,hfits,h⟩ := Option.bind_eq_some_iff.mp h
        by_cases hallocated : (env.outcome i).dataAllocated = true
        · rw [if_pos hallocated] at h
          obtain ⟨baseAddress,-,h⟩ := Option.bind_eq_some_iff.mp h
          cases h
          obtain ⟨bytes,hbytes⟩ : ∃ bytes, name = some bytes := Option.ne_none_iff_exists'.mp hname
          rw [hbytes] at hcopied
          obtain ⟨hstring,hstringMemory,hstringMapped,hterminated,hnotEmpty,hnameAllocated⟩ :=
            copyName_named hcopied
          exact ⟨hstring,hstringMemory,hstringMapped,hterminated,hnotEmpty,hnameAllocated,hlength,
            hmemory,hmapped,by simpa using hfits,hallocated⟩
        · rw [if_neg hallocated] at h
          simp at h
      · rw [if_neg hmapped] at hresult
        rw [← hresult] at h
        simp at h

theorem mapModules_of_mapsNamed (hlib : env.lib.Documented)
    (descriptors : List MultibootModuleInformation) (front : List BootModuleInformation)
    (h : ∀ j m, descriptors[j]? = some m → env.MapsNamed (front.length + j) m) :
    env.mapModules front.length descriptors
        (front ++ List.replicate descriptors.length bootModuleZero) =
      some (front ++ descriptors.map env.moduleInformation) := by
  induction descriptors generalizing front with
  | nil => simp [mapModules]
  | cons m descriptors ih =>
    have hrest := ih (front ++ [env.moduleInformation m]) (by
      intro j m' hm'
      have hnext := h (j + 1) m' (by simpa using hm')
      rw [List.length_append,List.length_singleton]
      rwa [Nat.add_assoc,Nat.add_comm 1 j])
    rw [List.length_append,List.length_singleton,List.append_assoc,List.append_assoc] at hrest
    have hhere := h 0 m rfl
    rw [Nat.add_zero] at hhere
    rw [mapModules,mapSingleModule_of_mapsNamed hlib hhere]
    simp only [Option.bind_eq_bind,Option.bind_some]
    rw [if_pos (by simp),List.length_cons,List.replicate_succ,List.set_append_right _ _ le_rfl,
      Nat.sub_self,List.set_cons_zero]
    exact hrest

theorem mapModules_kept {descriptors : List MultibootModuleInformation}
    {modules result : List BootModuleInformation}
    (h : env.mapModules i descriptors modules = some result) :
    result.length = modules.length ∧ ∀ k entry, result[k]? = some entry →
      modules[k]? = some entry ∨
        ∃ j m, k = i + j ∧ descriptors[j]? = some m ∧ env.mapSingleModule k m = some (.ok entry) := by
  induction descriptors generalizing i modules with
  | nil =>
    rw [mapModules] at h
    cases h
    exact ⟨rfl,fun k entry hentry => Or.inl hentry⟩
  | cons m descriptors ih =>
    obtain ⟨status,hstatus,h⟩ := Option.bind_eq_some_iff.mp h
    cases status with
    | error status =>
      obtain ⟨hlength,hkept⟩ := ih h
      refine ⟨hlength,fun k entry hentry => (hkept k entry hentry).imp_right ?_⟩
      rintro ⟨j,m',hk,hm',hmapped⟩
      exact ⟨j + 1,m',by omega,hm',hmapped⟩
    | ok mapped =>
      change (if i < modules.length then _ else _) = _ at h
      by_cases hi : i < modules.length
      · rw [if_pos hi] at h
        obtain ⟨hlength,hkept⟩ := ih h
        refine ⟨by rw [hlength,List.length_set],fun k entry hentry => ?_⟩
        rcases hkept k entry hentry with hold | ⟨j,m',hk,hm',hmapped⟩
        · by_cases hk : i = k
          · rw [hk,List.getElem?_set_self (hk ▸ hi)] at hold
            cases hold
            exact Or.inr ⟨0,m,hk.symm,rfl,hk ▸ hstatus⟩
          · rw [List.getElem?_set_ne hk] at hold
            exact Or.inl hold
        · exact Or.inr ⟨j + 1,m',by omega,hm',hmapped⟩
      · rw [if_neg hi] at h
        cases h

end Modules

theorem exists_unused_name (modules : List BootModuleInformation) :
    ∃ moduleName, ∀ m ∈ modules, ∀ name, m.name = some name →
      stricmpEqual moduleName ((cString name).map Char.ofNat) = false := by
  have hbound : ∃ bound, ∀ m ∈ modules, ∀ name, m.name = some name → name.length < bound := by
    induction modules with
    | nil => exact ⟨0,fun m hm => by simp at hm⟩
    | cons m modules ih =>
      obtain ⟨bound,hbound⟩ := ih
      refine ⟨bound + (m.name.getD []).length + 1,fun m' hm' name hname => ?_⟩
      rcases List.mem_cons.mp hm' with rfl | hm'
      · rw [hname,Option.getD_some]
        omega
      · have hless := hbound m' hm' name hname
        omega
  obtain ⟨bound,hbound⟩ := hbound
  refine ⟨List.replicate bound 'a',fun m hm name hname => ?_⟩
  have hless := hbound m hm name hname
  have hshort : (cString name).length ≤ name.length := (List.takeWhile_sublist _).length_le
  rw [stricmpEqual,beq_eq_false_iff_ne]
  intro hsame
  have hlength := congrArg List.length hsame
  simp only [List.length_map,List.length_replicate] at hlength
  omega

theorem named_of_findModule {moduleName : List Char} {modules : List BootModuleInformation}
    {left : Nat} {result : Except BootStatus (Option (List Nat) × Nat)}
    (h : findModule moduleName modules left = some result)
    (hunused : ∀ m ∈ modules, ∀ name, m.name = some name →
      stricmpEqual moduleName ((cString name).map Char.ofNat) = false) :
    ∀ j < left, ∃ m, modules[j]? = some m ∧ m.name ≠ none := by
  induction modules generalizing left with
  | nil =>
    cases left with
    | zero => exact fun j hj => absurd hj (Nat.not_lt_zero j)
    | succ left => cases h
  | cons m modules ih =>
    cases left with
    | zero => exact fun j hj => absurd hj (Nat.not_lt_zero j)
    | succ left =>
      obtain ⟨name,hname,h⟩ := Option.bind_eq_some_iff.mp h
      rw [hunused m List.mem_cons_self name hname,if_neg Bool.false_ne_true] at h
      intro j hj
      cases j with
      | zero => exact ⟨m,rfl,by rw [hname]; exact Option.some_ne_none name⟩
      | succ j =>
        exact ih h (fun m' hm' => hunused m' (List.mem_cons_of_mem m hm')) j (by omega)

section Answers

variable {env : BootEnvironment} {bootModulesStart i : Nat} {moduleName : List Char}

theorem couldMap_of_mapsNamed {multibootModule : MultibootModuleInformation}
    (h : env.MapsNamed i multibootModule) (hstart : bootModulesStart ≠ 0)
    (hallocated : env.arrayAllocated = true) (hmapped : env.arrayMapped = true) :
    env.couldMap bootModulesStart i multibootModule = true := by
  simp [couldMap,hstart,hallocated,hmapped,h.stringMapped,h.nameAllocated,h.length,h.dataMapped,
    h.dataAllocated]

theorem findModule_eq_firstModule (descriptors : List MultibootModuleInformation)
    (h : ∀ j m, descriptors[j]? = some m →
      env.couldMap bootModulesStart (i + j) m = true ∧ m.stringPhysAddr ≠ 0) :
    findModule moduleName (descriptors.map env.moduleInformation) descriptors.length =
      some (env.firstModule bootModulesStart moduleName (descriptors.zipIdx i)) := by
  induction descriptors generalizing i with
  | nil => rfl
  | cons m descriptors ih =>
    obtain ⟨hcould,hstring⟩ := h 0 m rfl
    have hrest := ih (i := i + 1) (by
      intro j m' hm'
      rw [Nat.add_assoc,Nat.add_comm 1 j]
      exact h (j + 1) m' hm')
    have hzero : 0 ∉ (env.moduleString m).dropLast :=
      fun hmem => zero_notMem_cString _ (List.mem_of_mem_dropLast hmem)
    have hname : (env.moduleInformation m).name =
        some ((env.moduleString m).dropLast ++ [0]) := if_neg hstring
    rw [List.map_cons,List.length_cons,findModule,hname,Option.bind_eq_bind,Option.bind_some,
      cString_append_zero hzero,firstModule,List.zipIdx_cons,List.find?_cons]
    rw [Nat.add_zero] at hcould
    have hnamed : (env.couldMap bootModulesStart i m && env.isNamed moduleName m) =
        stricmpEqual moduleName ((env.moduleString m).dropLast.map Char.ofNat) := by
      rw [hcould,isNamed,bne_iff_ne.mpr hstring,Bool.true_and,Bool.true_and]
    simp only [hnamed]
    cases stricmpEqual moduleName ((env.moduleString m).dropLast.map Char.ofNat) with
    | true => rfl
    | false => exact hrest

theorem firstModule_of_not_couldMap {descriptors : List (MultibootModuleInformation × Nat)}
    (h : ∀ p ∈ descriptors, env.couldMap bootModulesStart p.2 p.1 = false) :
    env.firstModule bootModulesStart moduleName descriptors = .error .elementNotFound := by
  have hnone : (descriptors.find? fun p =>
      env.couldMap bootModulesStart p.2 p.1 && env.isNamed moduleName p.1) = none := by
    rw [List.find?_eq_none]
    intro p hp
    rw [h p hp,Bool.false_and]
    exact Bool.false_ne_true
  rw [firstModule,hnone]

theorem keepsModules_of_nothing {descriptors : List MultibootModuleInformation}
    {status : Except BootStatus Unit}
    (hinit : env.bootModulesInit bootModulesStart descriptors = some (status,bootModulesPreinit))
    (hnot : ∀ j m, descriptors[j]? = some m → env.couldMap bootModulesStart j m = false) :
    env.KeepsModules bootModulesStart descriptors := by
  refine ⟨status,bootModulesPreinit,hinit,fun j m hm hcould => ?_,fun name => ?_⟩
  · rw [hnot j m hm] at hcould
    cases hcould
  · have hnone : ∀ p ∈ descriptors.zipIdx, env.couldMap bootModulesStart p.2 p.1 = false :=
      fun p hp => hnot p.2 p.1 (List.mem_zipIdx_iff_getElem?.mp hp)
    rw [firstModule_of_not_couldMap hnone]
    rfl

theorem arrayLength_eq {n : Nat} (hfits : n * 24 < 2 ^ 32) : n * 24 % 2 ^ 32 / 24 = n := by
  rw [Nat.mod_eq_of_lt hfits,Nat.mul_div_cancel n (by decide)]

theorem fits_of_arrayLength {n : Nat} (hlength : n ≤ n * 24 % 2 ^ 32 / 24) : n * 24 < 2 ^ 32 := by
  have hmul := (Nat.mul_le_mul_right 24 hlength).trans (Nat.div_mul_le_self _ _)
  exact hmul.trans_lt (Nat.mod_lt _ (by decide))

theorem keepsModules_of_mapsNamed (hlib : env.lib.Documented)
    {descriptors : List MultibootModuleInformation} (hstart : bootModulesStart ≠ 0)
    (hdescriptors : descriptors ≠ []) (hallocated : env.arrayAllocated = true)
    (hmemory : env.InMemory bootModulesStart (descriptors.length * 16))
    (hfits : descriptors.length * 24 < 2 ^ 32) (hmapped : env.arrayMapped = true)
    (h : ∀ i m, descriptors[i]? = some m → env.MapsNamed i m) :
    env.KeepsModules bootModulesStart descriptors := by
  have hlength : descriptors.length ≠ 0 := fun h => hdescriptors (List.length_eq_zero_iff.mp h)
  have hmap := mmuMapSystemMemory_eq_some.mpr
    ⟨Nat.mul_ne_zero hlength (by decide : 16 ≠ 0),hmemory,if_pos hmapped⟩
  have hmodules := mapModules_of_mapsNamed hlib descriptors [] (by
    intro j m hm
    rw [List.length_nil,Nat.zero_add]
    exact h j m hm)
  rw [List.length_nil,List.nil_append,List.nil_append] at hmodules
  refine ⟨.ok (),⟨descriptors.map env.moduleInformation,descriptors.length⟩,?_,?_,?_⟩
  · rw [bootModulesInit,if_neg hlength,if_neg hstart,if_pos hallocated,arrayLength_eq hfits,hmap]
    simp only [Option.bind_eq_bind,Option.bind_some]
    rw [hmodules]
    rfl
  · intro i m hm _
    rw [List.getElem?_map,hm]
    rfl
  · intro moduleName
    exact findModule_eq_firstModule descriptors (by
      intro j m hm
      rw [Nat.zero_add]
      exact ⟨couldMap_of_mapsNamed (h j m hm) hstart hallocated hmapped,(h j m hm).string⟩)

theorem mapsNamed_of_answers {descriptors : List MultibootModuleInformation} {length : Nat}
    {modules : List BootModuleInformation}
    (hmodules : env.mapModules 0 descriptors (List.replicate length bootModuleZero) = some modules)
    (hanswers : ∀ moduleName, ∃ answer,
      findModule moduleName modules descriptors.length = some answer) :
    descriptors.length ≤ length ∧ ∀ i m, descriptors[i]? = some m → env.MapsNamed i m := by
  obtain ⟨hlength,hkept⟩ := mapModules_kept hmodules
  obtain ⟨moduleName,hunused⟩ := exists_unused_name modules
  obtain ⟨answer,hanswer⟩ := hanswers moduleName
  have hnamed := named_of_findModule hanswer hunused
  rw [List.length_replicate] at hlength
  constructor
  · by_contra hmore
    obtain ⟨entry,hentry,-⟩ := hnamed length (by omega)
    rw [← hlength,List.getElem?_eq_none le_rfl] at hentry
    cases hentry
  · intro i m hm
    obtain ⟨hi,-⟩ := List.getElem?_eq_some_iff.mp hm
    obtain ⟨entry,hentry,hname⟩ := hnamed i hi
    rcases hkept i entry hentry with hzero | ⟨j,m',hj,hm',hmapped⟩
    · have heq := List.eq_of_mem_replicate (List.mem_of_getElem? hzero)
      exact absurd (congrArg BootModuleInformation.name heq) hname
    · rw [Nat.zero_add] at hj
      rw [← hj,hm] at hm'
      cases hm'
      exact mapsNamed_of_mapSingleModule hmapped hname

theorem mapsNamed_of_keepsModules {descriptors : List MultibootModuleInformation}
    (hdescriptors : descriptors ≠ []) (hstart : bootModulesStart ≠ 0) :
    env.KeepsModules bootModulesStart descriptors →
      env.arrayAllocated = true ∧ env.InMemory bootModulesStart (descriptors.length * 16) ∧
        descriptors.length * 24 < 2 ^ 32 ∧
        (env.arrayMapped = true → ∀ i m, descriptors[i]? = some m → env.MapsNamed i m) := by
  have hlength : descriptors.length ≠ 0 := fun h => hdescriptors (List.length_eq_zero_iff.mp h)
  rintro ⟨status,data,hinit,-,hanswers⟩
  rw [bootModulesInit,if_neg hlength,if_neg hstart] at hinit
  by_cases hallocated : env.arrayAllocated = true
  · rw [if_pos hallocated] at hinit
    obtain ⟨mapping,hmap,hinit⟩ := Option.bind_eq_some_iff.mp hinit
    obtain ⟨-,hmemory,hmapping⟩ := mmuMapSystemMemory_eq_some.mp hmap
    by_cases hmapped : env.arrayMapped = true
    · rw [if_pos hmapped] at hmapping
      rw [← hmapping] at hinit
      obtain ⟨modules,hmodules,hinit⟩ := Option.bind_eq_some_iff.mp hinit
      cases hinit
      obtain ⟨hfits,hnamed⟩ := mapsNamed_of_answers hmodules
        (fun moduleName => ⟨_,hanswers moduleName⟩)
      exact ⟨hallocated,hmemory,fits_of_arrayLength hfits,fun _ => hnamed⟩
    · rw [if_neg hmapped] at hmapping
      rw [← hmapping] at hinit
      change (if _ then _ else _) = _ at hinit
      rw [List.length_replicate] at hinit
      refine ⟨hallocated,hmemory,?_,fun h => absurd h hmapped⟩
      by_contra hlarge
      rw [if_neg (fun h => hlarge (fits_of_arrayLength h))] at hinit
      cases hinit
  · rw [if_neg hallocated] at hinit
    cases hinit

end Answers

/-- Every module is kept and every name is answered exactly when there is no module, or no address
of the descriptors, or nothing stops the initialization and every module is mapped under a name. -/
theorem keepsModules_iff (env : BootEnvironment) (hlib : env.lib.Documented)
    (bootModulesStart : Nat) (descriptors : List MultibootModuleInformation) :
    env.KeepsModules bootModulesStart descriptors ↔
      descriptors = [] ∨ bootModulesStart = 0 ∨
        (env.arrayAllocated = true ∧ env.InMemory bootModulesStart (descriptors.length * 16) ∧
          descriptors.length * 24 < 2 ^ 32 ∧
          (env.arrayMapped = true → ∀ i m, descriptors[i]? = some m → env.MapsNamed i m)) := by
  by_cases hdescriptors : descriptors = []
  · simp only [hdescriptors,true_or,iff_true]
    exact keepsModules_of_nothing rfl (fun j m hm => by simp at hm)
  have hlength : descriptors.length ≠ 0 := fun h => hdescriptors (List.length_eq_zero_iff.mp h)
  by_cases hstart : bootModulesStart = 0
  · simp only [hstart,true_or,or_true,iff_true]
    have hinit : env.bootModulesInit 0 descriptors =
        some (.error .invalidParameter1,bootModulesPreinit) := by
      rw [bootModulesInit,if_neg hlength,if_pos rfl]
    exact keepsModules_of_nothing hinit (fun j m hm => by simp [couldMap])
  rw [or_iff_right hdescriptors,or_iff_right hstart]
  constructor
  · exact mapsNamed_of_keepsModules hdescriptors hstart
  · rintro ⟨hallocated,hmemory,hfits,hnamed⟩
    by_cases hmapped : env.arrayMapped = true
    · exact keepsModules_of_mapsNamed hlib hstart hdescriptors hallocated hmemory hfits hmapped
        (hnamed hmapped)
    · have hmap := mmuMapSystemMemory_eq_some.mpr
        ⟨Nat.mul_ne_zero hlength (by decide : 16 ≠ 0),hmemory,if_neg hmapped⟩
      have hinit : env.bootModulesInit bootModulesStart descriptors =
          some (.error .memoryCannotBeMapped,bootModulesPreinit) := by
        rw [bootModulesInit,if_neg hlength,if_neg hstart,if_pos hallocated,arrayLength_eq hfits,hmap]
        simp only [Option.bind_eq_bind,Option.bind_some]
        rw [if_pos (by rw [List.length_replicate])]
      exact keepsModules_of_nothing hinit (fun j m hm => by simp [couldMap,hmapped])

/-- A name, with the space of the loader, at one place; nothing fails. -/
def oneName : BootEnvironment where
  lib := .plain
  memory address := if address = 0x3000 then 109 else if address = 0x3001 then 32 else 0
  highestPhysicalAddress := 0x100000
  arrayAllocated := true
  arrayMapped := true
  outcome _ := ⟨true,true,true,true⟩

/-- A module of that name. -/
def namedModule : MultibootModuleInformation := ⟨0x4000,0x4002,0x3000⟩

theorem keepsModules_named : oneName.KeepsModules 0x1000 [namedModule,namedModule] := by
  have hnamed : ∀ i, oneName.MapsNamed i namedModule := fun i =>
    ⟨by decide,by decide,rfl,by decide,by decide,rfl,by decide,by decide,rfl,by decide,rfl⟩
  refine (keepsModules_iff oneName StringFunctions.plain_documented 0x1000 _).mpr
    (Or.inr (Or.inr ⟨rfl,by decide,by decide,fun _ i m hm => ?_⟩))
  have hmem := List.mem_of_getElem? hm
  simp only [List.mem_cons,List.not_mem_nil,or_false,or_self] at hmem
  rw [hmem]
  exact hnamed i

/-- An empty module in front of the named one leaves an entry without a name, which is read. -/
theorem keepsModules_fails :
    ¬oneName.KeepsModules 0x1000 [⟨0x4000,0x4000,0x3000⟩,namedModule] := by
  intro h
  obtain ⟨-,-,-,hnamed⟩ := mapsNamed_of_keepsModules (by simp) (by decide) h
  exact (hnamed rfl 0 _ rfl).length rfl

end BootEnvironment

end Hal9000
