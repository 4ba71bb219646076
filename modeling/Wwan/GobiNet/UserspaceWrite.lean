import Wwan.GobiNet.GetTlv
import Wwan.GobiNet.Urbs

/-!
# A write from user space

`UserspaceWrite` puts a QMUX header before what it is given and hands it to `WriteSync`. The size
is a `size_t` in the one, an `int` in the other, and an `u16` in `FillQMUX` and in the setup packet,
so that a write of 64 KiB is sent as it is and framed as if it were a few bytes.
-/

namespace Wwan.GobiNet

open Bytes

/-! ## The QMUX header -/

/-- `sQMUX` -/
structure SQmux where
  mTF : UInt8
  mLength : ℕ
  mCtrlFlag : UInt8
  mQMIService : UInt8
  mQMIClientID : UInt8
  deriving DecidableEq

/-- `QMUXHeaderSize` -/
def qmuxHeaderSize : ℕ := 6

/-- The client id that `ParseQMUX` makes of a header. -/
def SQmux.clientID (h : SQmux) : UInt16 :=
  UInt16.ofNat (h.mQMIClientID.toNat * 256 + h.mQMIService.toNat)

/-- `FillQMUX`, whose `buffSize` is an `u16`. -/
def fillQMUX (clientID : UInt16) (buffSize : ℕ) : ℤ ⊕ SQmux :=
  if buffSize < qmuxHeaderSize then .inl enomem
  else .inr
    { mTF := 1
      mLength := (buffSize - 1) % 2 ^ 16
      mCtrlFlag := 0
      mQMIService := UInt8.ofNat (clientID.toNat % 256)
      mQMIClientID := UInt8.ofNat (clientID.toNat / 256) }

/-- What was filled in is read back. -/
theorem clientID_fillQMUX {clientID : UInt16} {buffSize : ℕ} {h : SQmux}
    (hfill : fillQMUX clientID buffSize = .inr h) : h.clientID = clientID := by
  unfold fillQMUX at hfill
  split at hfill
  · cases hfill
  · cases hfill
    have hlt := clientID.toNat_lt
    apply UInt16.toNat_inj.mp
    simp only [SQmux.clientID, UInt16.toNat_ofNat', UInt8.toNat_ofNat']
    omega

/-! ## Calls -/

/-- `sURBSetupPacket` -/
structure SUrbSetupPacket where
  mRequestType : UInt8
  mRequestCode : UInt8
  mValue : ℕ
  mIndex : ℕ
  mLength : ℕ
  deriving DecidableEq

/-- What is submitted: the header, the setup packet and the `transfer_buffer_length` of the URB. -/
structure Frame where
  header : SQmux
  writeSetup : SUrbSetupPacket
  transfer_buffer_length : ℕ
  deriving DecidableEq

/-- What a call returns, and the frame it has submitted. -/
structure Written where
  ret : ℤ
  submitted : Option Frame
  deriving DecidableEq

/-- `-EBADF` -/
def ebadf : ℤ := -9

/-- `-EBADR` -/
def ebadr : ℤ := -53

/-- What the calls find and what they are given by others. -/
structure WriteCalls where
  /-- The file has data. -/
  private_data : Bool
  mClientID : UInt16
  /-- `IsDeviceValid` in `UserspaceWrite`. -/
  valid : Bool
  /-- The number of bytes that `copy_from_user` has not copied. -/
  uncopied : ℕ
  /-- `IsDeviceValid` at the beginning of `WriteSync`. -/
  validSync : Bool
  /-- `usb_alloc_urb` -/
  urb : Bool
  bInterfaceNumber : ℕ
  /-- `kmalloc` of the setup packet, which is not checked. -/
  setup : Bool
  /-- `usb_autopm_get_interface` -/
  resume : Int32
  /-- `AddToURBList` -/
  added : Bool
  /-- `usb_submit_urb` -/
  submit : Int32
  /-- The wait. -/
  wait : Int32
  /-- `IsDeviceValid` after the wait. -/
  validLate : Bool
  /-- `PopFromURBList` has given the own URB back. -/
  own : Bool
  /-- The status of the URB. -/
  status : Int32

variable (x : WriteCalls)

/-- `WriteSync` after `usb_submit_urb`. -/
def writeSyncWait (writeBufferSize : ℤ) : ℤ :=
  if ¬x.validLate then enxio
  else if ¬x.own then einval
  else if x.wait = 0 then if x.status = 0 then writeBufferSize else x.status.toInt
  else x.wait.toInt

/-- `WriteSync`. There is no result if it writes to a setup packet that there is not. -/
def writeSync (writeBufferSize : ℤ) (clientID : UInt16) : Option Written :=
  if ¬x.validSync then some ⟨enxio, none⟩
  else if ¬x.urb then some ⟨enomem, none⟩
  else
    match fillQMUX clientID (writeBufferSize % 2 ^ 16).toNat with
    | .inl result => some ⟨result, none⟩
    | .inr header =>
      if ¬x.setup then none
      else
        let writeSetup : SUrbSetupPacket :=
          { mRequestType := 0x21
            mRequestCode := 0
            mValue := 0
            mIndex := x.bInterfaceNumber
            mLength := (writeBufferSize % 2 ^ 16).toNat }
        if x.resume < 0 then some ⟨x.resume.toInt, none⟩
        else if ¬x.added then some ⟨einval, none⟩
        else if x.submit < 0 then some ⟨x.submit.toInt, none⟩
        else some ⟨writeSyncWait x writeBufferSize, some ⟨header, writeSetup, u32 writeBufferSize⟩⟩

/-- What `UserspaceWrite` returns after `WriteSync`. An `int` is compared with a `size_t`. -/
def userspaceRet (size : ℕ) (status : ℤ) : ℤ :=
  if status % 2 ^ 64 = (size + qmuxHeaderSize) % 2 ^ 64 then Int.bmod size (2 ^ 64) else status

/-- `UserspaceWrite`, if there is memory for the buffer. -/
def userspaceWrite (size : ℕ) : Option Written :=
  if ¬x.private_data then some ⟨ebadf, none⟩
  else if ¬x.valid then some ⟨enxio, none⟩
  else if x.mClientID = 0xffff then some ⟨ebadr, none⟩
  else
    let status := int32 x.uncopied
    if status ≠ 0 then some ⟨status, none⟩
    else
      (writeSync x (int32 (size + qmuxHeaderSize)) x.mClientID).map fun w ↦
        { w with ret := userspaceRet size w.ret }

/-! ## Framing -/

/-- The lengths and the client in a frame are right. -/
structure Frame.Right (f : Frame) (clientID : UInt16) : Prop where
  header : f.header.mLength + 1 = f.transfer_buffer_length
  setup : f.writeSetup.mLength = f.transfer_buffer_length
  client : f.header.clientID = clientID

/-- A write is refused, or framed with its length. -/
def WriteLaw (size : ℕ) : Prop :=
  ∃ w, userspaceWrite x size = some w ∧
    ((w.submitted = none ∧ w.ret < 0) ∨ ∃ f, w.submitted = some f ∧ f.Right x.mClientID)

/-- The size in an `int`, as a pattern of 32 bits. -/
def syncSize (size : ℕ) : ℕ := (size + qmuxHeaderSize) % 2 ^ 32

/-- `UserspaceWrite` comes to `WriteSync`. -/
structure WriteCalls.Copied : Prop where
  private_data : x.private_data = true
  valid : x.valid = true
  client : x.mClientID ≠ 0xffff
  all : int32 x.uncopied = 0

/-- `WriteSync` fills in the header. -/
def WriteCalls.Filled (size : ℕ) : Prop :=
  x.validSync = true ∧ x.urb = true ∧ qmuxHeaderSize ≤ syncSize size % 2 ^ 16

/-- Nothing stops `WriteSync` after that. -/
def WriteCalls.Sent : Prop := ¬ x.resume < 0 ∧ x.added = true ∧ ¬ x.submit < 0

/-- A failed copy looks like an error, there is memory for the setup packet, and what is submitted
has a size of 16 bits. -/
structure WriteCalls.Fits (size : ℕ) : Prop where
  copy : x.private_data = true → x.valid = true → x.mClientID ≠ 0xffff → int32 x.uncopied ≤ 0
  setup : x.Copied → x.Filled size → x.setup = true
  size : x.Copied → x.Filled size → x.Sent → syncSize size < 2 ^ 16

/-- What `WriteSync` does. -/
inductive SyncCase (size : ℕ) : Option Written → Prop
  | crash (hfilled : x.Filled size) (hsetup : x.setup = false) : SyncCase size none
  | refused {ret : ℤ} (hneg : ret < 0) (hge : -2 ^ 31 ≤ ret)
      (hnot : x.Filled size → x.setup = true ∧ ¬ x.Sent) : SyncCase size (some ⟨ret, none⟩)
  | sent {ret : ℤ} {f : Frame} (hfilled : x.Filled size) (hsetup : x.setup = true) (hsent : x.Sent)
      (hheader : f.header.mLength + 1 = syncSize size % 2 ^ 16)
      (hpacket : f.writeSetup.mLength = syncSize size % 2 ^ 16)
      (hlength : f.transfer_buffer_length = syncSize size)
      (hclient : f.header.clientID = x.mClientID) : SyncCase size (some ⟨ret, some f⟩)

variable {x} {size : ℕ}

theorem writeSync_case (x : WriteCalls) (size : ℕ) :
    SyncCase x size (writeSync x (int32 (size + qmuxHeaderSize)) x.mClientID) := by
  have hu16 : (int32 (size + qmuxHeaderSize) % 2 ^ 16).toNat = syncSize size % 2 ^ 16 := by
    unfold int32 syncSize
    rw [Int.bmod_def]
    split <;> omega
  have hu32 : u32 (int32 (size + qmuxHeaderSize)) = syncSize size := by
    unfold u32 int32 syncSize
    rw [Int.bmod_def]
    split <;> omega
  unfold writeSync
  by_cases hvalid : x.validSync = true
  swap
  · rw [if_pos hvalid]
    exact .refused (by decide) (by decide) fun h ↦ absurd h.1 hvalid
  rw [if_neg (not_not.mpr hvalid)]
  by_cases hurb : x.urb = true
  swap
  · rw [if_pos hurb]
    exact .refused (by decide) (by decide) fun h ↦ absurd h.2.1 hurb
  rw [if_neg (not_not.mpr hurb), hu16]
  by_cases hshort : syncSize size % 2 ^ 16 < qmuxHeaderSize
  · rw [fillQMUX, if_pos hshort]
    exact .refused (by decide) (by decide) fun h ↦ absurd hshort (Nat.not_lt.mpr h.2.2)
  have hfilled : x.Filled size := ⟨hvalid, hurb, Nat.not_lt.mp hshort⟩
  rw [fillQMUX, if_neg hshort]
  dsimp only
  by_cases hsetup : x.setup = true
  swap
  · rw [if_pos hsetup]
    exact .crash hfilled (Bool.eq_false_iff.mpr hsetup)
  rw [if_neg (not_not.mpr hsetup)]
  by_cases hresume : x.resume < 0
  · rw [if_pos hresume]
    exact .refused (Int32.lt_iff_toInt_lt.mp hresume) x.resume.le_toInt
      fun _ ↦ ⟨hsetup, fun h ↦ h.1 hresume⟩
  rw [if_neg hresume]
  by_cases hadded : x.added = true
  swap
  · rw [if_pos hadded]
    exact .refused (by decide) (by decide) fun _ ↦ ⟨hsetup, fun h ↦ hadded h.2.1⟩
  rw [if_neg (not_not.mpr hadded)]
  by_cases hsubmit : x.submit < 0
  · rw [if_pos hsubmit]
    exact .refused (Int32.lt_iff_toInt_lt.mp hsubmit) x.submit.le_toInt
      fun _ ↦ ⟨hsetup, fun h ↦ h.2.2 hsubmit⟩
  rw [if_neg hsubmit, hu32]
  refine .sent hfilled hsetup ⟨hresume, hadded, hsubmit⟩ ?_ rfl rfl ?_
  · dsimp only
    rw [qmuxHeaderSize] at hshort
    omega
  · refine @clientID_fillQMUX _ (syncSize size % 2 ^ 16) _ ?_
    rw [fillQMUX, if_neg hshort]

/-- An error of `WriteSync` is an error of `UserspaceWrite`. -/
theorem userspaceRet_neg {ret : ℤ} (hneg : ret < 0) (hge : -2 ^ 31 ≤ ret) :
    userspaceRet size ret < 0 := by
  unfold userspaceRet
  split
  · rename_i h
    rw [qmuxHeaderSize] at h
    rw [Int.bmod_def]
    split <;> omega
  · exact hneg

/-- What has been copied is refused by `WriteSync`, or framed with its length. -/
theorem SyncCase.law_iff {r : Option Written} (h : SyncCase x size r) (hcopied : x.Copied) :
    (∃ w, (r.map fun w ↦ { w with ret := userspaceRet size w.ret }) = some w ∧
      ((w.submitted = none ∧ w.ret < 0) ∨
        ∃ f, w.submitted = some f ∧ f.Right x.mClientID)) ↔ x.Fits size := by
  have hcopy := hcopied.all
  cases h with
  | crash hfilled hsetup =>
    refine iff_of_false ?_ fun h ↦ ?_
    · rintro ⟨_, ⟨⟩, -⟩
    · rw [h.setup hcopied hfilled] at hsetup
      cases hsetup
  | @refused ret hneg hge hnot =>
    exact iff_of_true ⟨_, rfl, .inl ⟨rfl, userspaceRet_neg hneg hge⟩⟩
      ⟨fun _ _ _ ↦ Int.le_of_eq hcopy, fun _ h ↦ (hnot h).1,
        fun _ h hsent ↦ absurd hsent (hnot h).2⟩
  | @sent ret f hfilled hsetup hsent hheader hpacket hlength hclient =>
    have hright : f.Right x.mClientID ↔ syncSize size < 2 ^ 16 := by
      constructor
      · intro h
        rw [← hlength, ← h.setup, hpacket]
        exact Nat.mod_lt _ (by decide)
      · intro hlt
        rw [Nat.mod_eq_of_lt hlt, ← hlength] at hheader hpacket
        exact ⟨hheader, hpacket, hclient⟩
    have hfits : x.Fits size ↔ syncSize size < 2 ^ 16 :=
      ⟨fun h ↦ h.size hcopied hfilled hsent,
        fun h ↦ ⟨fun _ _ _ ↦ Int.le_of_eq hcopy, fun _ _ ↦ hsetup, fun _ _ _ ↦ h⟩⟩
    rw [hfits, ← hright]
    constructor
    · rintro ⟨_, ⟨⟩, ⟨⟨⟩, -⟩ | ⟨_, ⟨⟩, hf⟩⟩
      exact hf
    · exact fun h ↦ ⟨_, rfl, .inr ⟨f, rfl, h⟩⟩

/-- A write is refused or framed with its length if and only if a copy that fails looks like an
error, there is memory for the setup packet, and what is submitted has less than 64 KiB. -/
theorem writeLaw_iff (x : WriteCalls) (size : ℕ) : WriteLaw x size ↔ x.Fits size := by
  unfold WriteLaw userspaceWrite
  by_cases hdata : x.private_data = true
  swap
  · rw [if_pos hdata]
    exact iff_of_true ⟨_, rfl, .inl ⟨rfl, by decide⟩⟩
      ⟨fun h ↦ absurd h hdata, fun h ↦ absurd h.private_data hdata,
        fun h ↦ absurd h.private_data hdata⟩
  rw [if_neg (not_not.mpr hdata)]
  by_cases hvalid : x.valid = true
  swap
  · rw [if_pos hvalid]
    exact iff_of_true ⟨_, rfl, .inl ⟨rfl, by decide⟩⟩
      ⟨fun _ h ↦ absurd h hvalid, fun h ↦ absurd h.valid hvalid, fun h ↦ absurd h.valid hvalid⟩
  rw [if_neg (not_not.mpr hvalid)]
  by_cases hid : x.mClientID = 0xffff
  · rw [if_pos hid]
    exact iff_of_true ⟨_, rfl, .inl ⟨rfl, by decide⟩⟩
      ⟨fun _ _ h ↦ absurd hid h, fun h ↦ absurd hid h.client, fun h ↦ absurd hid h.client⟩
  rw [if_neg hid]
  dsimp only
  by_cases hcopy : int32 x.uncopied = 0
  swap
  · -- the number of bytes that were not copied is returned
    rw [if_pos hcopy]
    constructor
    · rintro ⟨w, hw, hlaw⟩
      rw [← Option.some.inj hw] at hlaw
      dsimp only at hlaw
      obtain ⟨-, hneg⟩ | ⟨_, hf, -⟩ := hlaw
      · exact ⟨fun _ _ _ ↦ Int.le_of_lt hneg, fun h ↦ absurd h.all hcopy,
          fun h ↦ absurd h.all hcopy⟩
      · exact absurd hf (Option.some_ne_none _).symm
    · intro h
      have hle := h.copy hdata hvalid hid
      refine ⟨_, rfl, .inl ⟨rfl, ?_⟩⟩
      dsimp only
      omega
  rw [if_neg (not_not.mpr hcopy)]
  exact (writeSync_case x size).law_iff ⟨hdata, hvalid, hid, hcopy⟩

/-- Everything that a write calls succeeds. -/
def WriteCalls.well (clientID : UInt16) : WriteCalls :=
  { private_data := true, mClientID := clientID, valid := true, uncopied := 0
    validSync := true, urb := true, bInterfaceNumber := 4, setup := true, resume := 0
    added := true, submit := 0, wait := 0, validLate := true, own := true, status := 0 }

/-- A write of 64 KiB is submitted with the header of a write of nothing, and reported as sent. -/
theorem userspaceWrite_wraps :
    (∃ f, userspaceWrite (.well 0x0101) 65536 = some ⟨65536, some f⟩ ∧ f.header.mLength = 5 ∧
      f.writeSetup.mLength = 6 ∧ f.transfer_buffer_length = 65542) ∧
    ¬ WriteLaw (.well 0x0101) 65536 := by
  have hw : userspaceWrite (.well 0x0101) 65536 =
      some ⟨65536, some ⟨⟨1, 5, 0, 1, 1⟩, ⟨0x21, 0, 0, 4, 6⟩, 65542⟩⟩ := by decide +kernel
  refine ⟨⟨_, hw, rfl, rfl, rfl⟩, ?_⟩
  rintro ⟨w, hwrite, hlaw⟩
  rw [hw] at hwrite
  rw [← Option.some.inj hwrite] at hlaw
  obtain ⟨hnone, -⟩ | ⟨f, hf, hright⟩ := hlaw
  · cases hnone
  · rw [← Option.some.inj hf] at hright
    exact absurd hright.header (by decide)

end Wwan.GobiNet
