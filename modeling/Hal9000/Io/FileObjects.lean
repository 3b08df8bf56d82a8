import Hal9000.Io.DeviceStack

/-!
# Reads and writes of a file

A read or a write of a file is one request to the device of its file system. The file object
keeps a byte offset for the calls that come without one.
-/

namespace Hal9000

/-- `FILE_OBJECT`, as `IoCreateFile` leaves it: the device of the file system takes requests. -/
structure FileObject (Device : Type) where
  asynchronous : Bool
  currentByteOffset : BitVec 64
  fileSystemDevice : DeviceObject Device
  stackSize_pos : 0 < fileSystemDevice.stackSize
  stackSize_le : fileSystemDevice.stackSize ≤ maxByte

/-- The failures of a read or a write. -/
inductive FileStatus
  | heapNoMoreMemory
  | device (status : IrpStatus)
  | fileSystem (status : Nat)
  deriving DecidableEq

/-- What the file system makes of a request: what its dispatch function returns, and what it leaves
in `IoStatus`. -/
structure FileSystemReply where
  dispatched : Except Nat Unit
  status : Except Nat Unit
  information : BitVec 64

/-- A call of `IoReadFile` or `IoWriteFile`, and what it meets with: whether there is memory for
the request, and the answer to it. -/
structure ReadWriteCall where
  write : Bool
  length : BitVec 64
  fileOffset : Option (BitVec 64)
  irpAllocated : Bool
  reply : FileSystemReply

/-- The offset that a call uses. -/
def ReadWriteCall.offset {Device : Type} (call : ReadWriteCall) (file : FileObject Device) :
    BitVec 64 :=
  call.fileOffset.getD file.currentByteOffset

def ReadWriteCall.request {Device : Type} (call : ReadWriteCall) (file : FileObject Device) :
    IoStackLocation :=
  ⟨if call.write then .write else .read,call.length.toNat,(call.offset file).toNat⟩

/-- What a call returns: the status, and what is stored in `BytesTransferred` if anything is. -/
structure ReadWriteResult where
  status : Except FileStatus Unit
  bytesTransferred : Option (BitVec 64)

section ReadWrite

variable {Device : Type}

/-- A request of one stack location is built and handed to `IoCallDriver`: the status is a
failure if the dispatch function of the driver is not called. -/
def callFileSystem (device : DeviceObject Device) (request : IoStackLocation) :
    Option IrpStatus := do
  let irp ← ioAllocateIrp device.stackSize
  let next ← ioGetNextIrpStackLocation irp
  let irp := { irp with stackLocations := irp.stackLocations.set next request }
  let (_,status) ← ioCallDriver device (fun irp => some (irp,.success)) irp
  some status

/-- `_IoReadWriteFile`. -/
def ioReadWriteFile (file : FileObject Device) (call : ReadWriteCall) :
    Option (ReadWriteResult × FileObject Device) := do
  assert (!file.asynchronous || call.fileOffset.isSome)
  if call.irpAllocated then
    let status ← callFileSystem file.fileSystemDevice (call.request file)
    if status ≠ .success then some (⟨.error (.device status),none⟩,file)
    else
      match call.reply.dispatched,call.reply.status with
      | .error status,_ => some (⟨.error (.fileSystem status),none⟩,file)
      | .ok _,.error status =>
        some (⟨.error (.fileSystem status),some call.reply.information⟩,file)
      | .ok _,.ok _ =>
        some (⟨.ok (),some call.reply.information⟩,
          if file.asynchronous then file
          else { file with
            currentByteOffset := file.currentByteOffset + call.reply.information })
  else some (⟨.error .heapNoMoreMemory,none⟩,file)

/-- `IoWriteFile`. -/
def ioWriteFile (file : FileObject Device) (length : BitVec 64) (fileOffset : Option (BitVec 64))
    (irpAllocated : Bool) (reply : FileSystemReply) :
    Option (ReadWriteResult × FileObject Device) :=
  ioReadWriteFile file ⟨true,length,fileOffset,irpAllocated,reply⟩

/-- The driver of the device takes the request. -/
def DeviceObject.Accepts (device : DeviceObject Device) (request : IoStackLocation) : Prop :=
  isAddressAligned request.length device.deviceAlignment ∧
    isAddressAligned request.offset device.deviceAlignment ∧
    device.dispatchFunctions request.majorFunction

/-- There is memory for the request, the device takes it, and the file system answers it. -/
def ReadWriteCall.Succeeds (call : ReadWriteCall) (file : FileObject Device) : Prop :=
  call.irpAllocated ∧ file.fileSystemDevice.Accepts (call.request file) ∧
    call.reply.dispatched.isOk ∧ call.reply.status.isOk

instance (device : DeviceObject Device) (request : IoStackLocation) :
    Decidable (device.Accepts request) :=
  inferInstanceAs (Decidable (_ ∧ _))

instance (call : ReadWriteCall) (file : FileObject Device) : Decidable (call.Succeeds file) :=
  inferInstanceAs (Decidable (_ ∧ _))

variable {file : FileObject Device} {call : ReadWriteCall}

theorem callFileSystem_spec {device : DeviceObject Device} (hpos : 0 < device.stackSize)
    (hle : device.stackSize ≤ maxByte) {request : IoStackLocation}
    (hrequest : request.majorFunction = .read ∨ request.majorFunction = .write) :
    ∃ status, callFileSystem device request = some status ∧
      (status = .success ↔ device.Accepts request) := by
  have hassert : assert (0 < device.stackSize) = some () :=
    assert_eq_some.mpr (decide_eq_true hpos)
  have hne : assert (0 != device.stackSize) = some () :=
    assert_eq_some.mpr (bne_iff_ne.mpr (by omega))
  have hmax : assert (maxByte != device.stackSize - 1) = some () :=
    assert_eq_some.mpr (bne_iff_ne.mpr (by omega))
  have hget : ((List.replicate device.stackSize (⟨.create,0,0⟩ : IoStackLocation)).set
      (device.stackSize - 1) request)[device.stackSize - 1]? = some request := by
    rw [List.getElem?_set_self]
    rw [List.length_replicate]
    omega
  simp only [callFileSystem,ioAllocateIrp,ioGetNextIrpStackLocation,ioCallDriver,
    ioGetCurrentIrpStackLocation,hassert,hne,hmax,hget,Option.bind_eq_bind,Option.bind_some]
  by_cases haligned : isAddressAligned request.length device.deviceAlignment ∧
      isAddressAligned request.offset device.deviceAlignment
  · rw [if_neg (fun h => h.2 haligned)]
    by_cases hdispatch : device.dispatchFunctions request.majorFunction
    · rw [if_pos hdispatch]
      exact ⟨_,rfl,fun _ => ⟨haligned.1,haligned.2,hdispatch⟩,fun _ => rfl⟩
    · rw [if_neg hdispatch]
      exact ⟨_,rfl,iff_of_false (by intro h; cases h) (fun h => hdispatch h.2.2)⟩
  · rw [if_pos ⟨hrequest,haligned⟩]
    exact ⟨_,rfl,iff_of_false (by intro h; cases h) (fun h => haligned ⟨h.1,h.2.1⟩)⟩

theorem request_majorFunction (call : ReadWriteCall) (file : FileObject Device) :
    (call.request file).majorFunction = .read ∨ (call.request file).majorFunction = .write := by
  rw [ReadWriteCall.request]
  cases call.write
  · exact Or.inl rfl
  · exact Or.inr rfl

theorem assert_offset (h : file.asynchronous = true → call.fileOffset.isSome) :
    assert (!file.asynchronous || call.fileOffset.isSome) = some () := by
  rw [assert_eq_some]
  cases hasync : file.asynchronous with
  | false => rfl
  | true => simpa using h hasync

theorem offset_given (hsynchronous : file.asynchronous = false) :
    file.asynchronous = true → call.fileOffset.isSome := by
  rw [hsynchronous]
  intro h
  cases h

/-- A call that succeeds transfers what the file system says, and advances the offset that the
file object keeps. -/
theorem ioReadWriteFile_succeeds (hoffset : file.asynchronous = true → call.fileOffset.isSome)
    (h : call.Succeeds file) :
    ioReadWriteFile file call = some (⟨.ok (),some call.reply.information⟩,
      if file.asynchronous then file
      else { file with
        currentByteOffset := file.currentByteOffset + call.reply.information }) := by
  obtain ⟨hirp,haccepts,hdispatched,hstatus⟩ := h
  obtain ⟨status,hcall,hsuccess⟩ :=
    callFileSystem_spec file.stackSize_pos file.stackSize_le (request_majorFunction call file)
  obtain rfl := hsuccess.mpr haccepts
  rw [ioReadWriteFile,assert_offset hoffset,hirp,hcall]
  cases hd : call.reply.dispatched with
  | error => rw [hd] at hdispatched; cases hdispatched
  | ok =>
    cases hs : call.reply.status with
    | error => rw [hs] at hstatus; cases hstatus
    | ok => rfl

theorem ioReadWriteFile_fails (hoffset : file.asynchronous = true → call.fileOffset.isSome)
    (h : ¬ call.Succeeds file) :
    ∃ status bytes, ioReadWriteFile file call = some (⟨.error status,bytes⟩,file) := by
  obtain ⟨status,hcall,hsuccess⟩ :=
    callFileSystem_spec file.stackSize_pos file.stackSize_le (request_majorFunction call file)
  rw [ioReadWriteFile,assert_offset hoffset]
  cases hirp : call.irpAllocated with
  | false => exact ⟨_,_,rfl⟩
  | true =>
    simp only [Option.bind_eq_bind,Option.bind_some,if_true,hcall]
    by_cases hstatus : status = .success
    · rw [if_neg (not_not.mpr hstatus)]
      cases hd : call.reply.dispatched with
      | error => exact ⟨_,_,rfl⟩
      | ok =>
        cases hs : call.reply.status with
        | error => exact ⟨_,_,rfl⟩
        | ok => exact absurd ⟨hirp,hsuccess.mp hstatus,by rw [hd]; rfl,by rw [hs]; rfl⟩ h
    · rw [if_pos hstatus]
      exact ⟨_,_,rfl⟩

/-- The calls on one synchronous file object. -/
def fileCalls (Device : Type) : TransitionSystem (FileObject Device) ReadWriteCall where
  init file := file.asynchronous = false
  step file call := (ioReadWriteFile file call).map (·.2)

/-- After the call the offset is the one behind what was transferred, from where the next call
without an offset goes on; a failed call leaves it. -/
def KeepsPosition (file : FileObject Device) (call : ReadWriteCall) : Prop :=
  ∃ result file', ioReadWriteFile file call = some (result,file') ∧
    match result.status with
    | .ok _ => ∃ bytes, result.bytesTransferred = some bytes ∧
        file'.currentByteOffset = call.offset file + bytes ∧
        ∀ next : ReadWriteCall, next.fileOffset = none →
          next.offset file' = call.offset file + bytes
    | .error _ => file'.currentByteOffset = file.currentByteOffset

/-- A call that succeeds with an offset of its own has the one that the file object keeps. -/
def ContinuesAtOffset (file : FileObject Device) (call : ReadWriteCall) : Prop :=
  ∀ offset, call.fileOffset = some offset → call.Succeeds file → offset = file.currentByteOffset

instance (file : FileObject Device) (call : ReadWriteCall) :
    Decidable (ContinuesAtOffset file call) :=
  match hoffset : call.fileOffset with
  | none => .isTrue (fun _ h => nomatch hoffset.symm.trans h)
  | some offset =>
    decidable_of_iff (call.Succeeds file → offset = file.currentByteOffset)
      ⟨fun h _ hsame => Option.some.inj (hoffset.symm.trans hsame) ▸ h,fun h => h offset hoffset⟩

theorem keepsPosition_iff (hsynchronous : file.asynchronous = false) :
    KeepsPosition file call ↔ ContinuesAtOffset file call := by
  by_cases hsucceeds : call.Succeeds file
  · have hcall := ioReadWriteFile_succeeds (offset_given hsynchronous) hsucceeds
    rw [hsynchronous] at hcall
    have hkeeps : KeepsPosition file call ↔ file.currentByteOffset = call.offset file := by
      constructor
      · rintro ⟨result,file',hresult,hkept⟩
        rw [hcall] at hresult
        cases hresult
        obtain ⟨bytes,hbytes,hafter,-⟩ := hkept
        cases hbytes
        exact add_right_cancel hafter
      · intro hsame
        refine ⟨_,_,hcall,_,rfl,congrArg (· + _) hsame,fun next hnext => ?_⟩
        rw [ReadWriteCall.offset,hnext,← hsame]
        rfl
    rw [hkeeps,ContinuesAtOffset,ReadWriteCall.offset]
    cases call.fileOffset with
    | none =>
      refine iff_of_true rfl ?_
      intro _ h
      cases h
    | some offset =>
      constructor
      · rintro hsame _ ⟨⟩ _
        exact hsame.symm
      · intro hcontinues
        exact (hcontinues offset rfl hsucceeds).symm
  · obtain ⟨status,bytes,hcall⟩ := ioReadWriteFile_fails (offset_given hsynchronous) hsucceeds
    exact iff_of_true ⟨_,_,hcall,rfl⟩ (fun _ _ h => absurd h hsucceeds)

theorem fileCalls_synchronous {file' : FileObject Device} (h : file.asynchronous = false)
    (hstep : (fileCalls Device).step file call = some file') : file'.asynchronous = false := by
  obtain ⟨⟨result,after⟩,hcall,rfl⟩ := Option.map_eq_some_iff.mp hstep
  by_cases hsucceeds : call.Succeeds file
  · rw [ioReadWriteFile_succeeds (offset_given h) hsucceeds,h] at hcall
    cases hcall
    rfl
  · obtain ⟨status,bytes,hfails⟩ := ioReadWriteFile_fails (offset_given h) hsucceeds
    rw [hfails] at hcall
    cases hcall
    exact h

/-- Every call of a sequence keeps the offset right if and only if no call succeeds at an offset
of its own that is not the one kept. -/
theorem position_kept_iff {file : FileObject Device} (hinit : (fileCalls Device).init file)
    (calls : List ReadWriteCall) :
    (fileCalls Device).RunSatisfies KeepsPosition file calls ↔
      (fileCalls Device).RunSatisfies ContinuesAtOffset file calls :=
  TransitionSystem.runSatisfies_iff_of_invariant (fun _ _ => keepsPosition_iff)
    (fun _ _ _ => fileCalls_synchronous) hinit calls

end ReadWrite

private theorem plainStack_le : 1 ≤ maxByte := by decide

/-- A file on a device that takes every request. -/
def plainFile : FileObject Unit where
  asynchronous := false
  currentByteOffset := 0
  fileSystemDevice := ⟨none,1,1,fun _ => true⟩
  stackSize_pos := Nat.one_pos
  stackSize_le := plainStack_le

def FileSystemReply.transferred (information : BitVec 64) : FileSystemReply :=
  ⟨.ok (),.ok (),information⟩

/-- A write at the offset kept, a read without one that transfers less than asked for, and a call
at another offset that fails. -/
def mixedCalls : List ReadWriteCall :=
  [⟨true,512,some 0,true,.transferred 512⟩,⟨false,512,none,true,.transferred 100⟩,
    ⟨false,16,some 0,false,.transferred 0⟩,⟨true,8,some 612,true,.transferred 8⟩]

theorem position_kept_mixed : (fileCalls Unit).RunSatisfies KeepsPosition plainFile mixedCalls := by
  have hinit : (fileCalls Unit).init plainFile := rfl
  exact (position_kept_iff hinit mixedCalls).mpr (by decide +kernel)

/-- A read at an offset of its own advances the one that is kept. -/
theorem position_not_kept :
    ((fileCalls Unit).step plainFile ⟨false,16,some 512,true,.transferred 16⟩).map
        (·.currentByteOffset) = some 16 ∧
      ¬ (fileCalls Unit).RunSatisfies KeepsPosition plainFile
        [⟨false,16,some 512,true,.transferred 16⟩] := by
  refine ⟨rfl,?_⟩
  rintro ⟨hkept,-⟩
  have hcontinues := (keepsPosition_iff rfl).mp hkept
  revert hcontinues
  decide +kernel

end Hal9000
