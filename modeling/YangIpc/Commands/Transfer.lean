import YangIpc.Commands.Devices
import YangIpc.FrameQueue.Calls
import YangIpc.FrameQueue.Sections
import YangIpc.Library.Bits
import YangIpc.Library.Run

/-!
# The consumer of the Wi-Fi transfer

`yangipc_video_transfer_turn_on` registers the consumer of the transfer before it opens the
transfer, and keeps the registration when that fails; `yangipc_video_transfer_turn_off` takes it
back even if the transfer could not be closed.

## Main definitions

* `Devices.Registered`: the consumer is registered on the queue of the transfer format
* `Devices.InStep`, `Devices.Served`: what is promised of a call, and when it keeps it
* `Devices.Consistent`: the invariant

## Main results

* `KeepsConsumers`, `register_masks`, `unregister_masks`: what a call does to the consumers of a
  queue
* `inStep_iff`, `Consistent.next`: one call
* `devices_inStep_iff`: every run
-/

namespace YangIpc

namespace Commands

open FrameQueue Transition

namespace Devices

/-- The consumer of the transfer is among the active consumers of a queue. -/
def Consumes (s : Devices) (format : ImageFormat) : Prop :=
  (s.queues format).activeConsumers &&& consumerTransmission ≠ 0

/-- The consumer is registered on the queue of the transfer format. -/
def Registered (s : Devices) : Prop := ∃ info, s.info = some info ∧ s.Consumes info.transferFormat

/-- What is promised of a call: afterwards the consumer is registered if and only if the transfer
is open, and no queue has other consumers after a transfer could not be turned on. -/
def InStep (s : Devices) (call : DeviceCall) : Prop :=
  ((s.next call).Registered ↔ (s.next call).wifiOpen = true) ∧
    ∀ opened, call = .transferTurnOn opened → (yangipcVideoTransferTurnOn opened s).2 = false →
      ∀ format, ((s.next call).queues format).activeConsumers =
        (s.queues format).activeConsumers

/-- The camera is on. -/
def CameraOn (s : Devices) : Prop := ∃ info, s.info = some info ∧ info.handle.isSome = true

/-- The camera is on, and there is a callback. -/
def TransferReady (s : Devices) : Prop :=
  ∃ info, s.info = some info ∧ info.videoTransferCb = true ∧ info.handle.isSome = true

/-- The Wi-Fi transfer is opened or closed as it is asked to: it does not fail to open while it is
closed, nor to close while it is open. -/
def Served (s : Devices) : DeviceCall → Prop
  | .transferTurnOn opened => s.TransferReady → opened = true ∨ s.wifiOpen = true
  | .transferTurnOff closed => s.CameraOn → closed = true ∨ s.wifiOpen = false
  | _ => True

/-- No camera, no transfer, and nobody registered. -/
structure Idle (s : Devices) : Prop where
  camera : ¬s.CameraOn
  wifi : s.wifiOpen = false
  consumers : ∀ format, ¬s.Consumes format

/-- The invariant: the consumer is registered on no queue but the one for H264, and there while
the transfer is open. -/
structure Consistent (s : Devices) : Prop where
  h264 : s.Consumes .h264 ↔ s.wifiOpen = true
  other : ∀ format ≠ .h264, ¬s.Consumes format
  format : s.wifiOpen = true → ∃ info, s.info = some info ∧ info.transferFormat = .h264
  camera : ∀ info, s.info = some info → info.handle.isSome = true → info.transferFormat = .h264
  count : s.wifiOpen = true ∨ s.CameraOn → (s.queues .h264).count ≠ 0

end Devices

/-! ## One queue -/

section Queue

variable {format : ImageFormat} {q q' q'' : FrameQueueV2} {mask : Mask}

theorem consumes_iff : mask &&& consumerTransmission ≠ 0 ↔ 0 ∈ Bits.bits mask :=
  Bits.and_one_shiftLeft_ne_zero_iff (by decide)

theorem bits_consumerTransmission : Bits.bits consumerTransmission = {0} :=
  Bits.bits_one_shiftLeft (by decide)

theorem or_consumes (mask : Mask) :
    (mask ||| consumerTransmission) &&& consumerTransmission ≠ 0 := by
  rw [consumes_iff, Bits.bits_or, bits_consumerTransmission]
  exact .inr rfl

theorem and_not_consumes (mask : Mask) :
    ¬(mask &&& ~~~consumerTransmission) &&& consumerTransmission ≠ 0 := by
  rw [consumes_iff, Bits.bits_and_not, bits_consumerTransmission]
  exact fun h => h.2 rfl

theorem or_eq_self (h : mask &&& consumerTransmission ≠ 0) :
    mask ||| consumerTransmission = mask := by
  apply Bits.bits_injective
  rw [Bits.bits_or, bits_consumerTransmission, Set.union_eq_left, Set.singleton_subset_iff]
  exact consumes_iff.mp h

theorem usable_of_count (hformat : format ≠ .other) (hc : q.count ≠ 0) :
    usable format q = true := by
  cases format <;> simp_all [usable, getFrameBufferListIndex, fbListMaxCount]

theorem register_masks (hformat : format ≠ .other) (hc : q.count ≠ 0) :
    (frameQueueV2RegisterConsumer format consumerTransmission q).1.activeConsumers =
        q.activeConsumers ||| consumerTransmission ∧
      (frameQueueV2RegisterConsumer format consumerTransmission q).1.count = q.count := by
  have hidx : consumerIdx consumerTransmission = some 0 := rfl
  rw [frameQueueV2RegisterConsumer, if_pos (usable_of_count hformat hc), hidx]
  exact ⟨sweepReady_activeConsumers _ _, sweepReady_count _ _⟩

theorem unregister_masks (hformat : format ≠ .other) (hc : q.count ≠ 0) :
    (frameQueueV2UnregisterConsumer format consumerTransmission q).1.activeConsumers =
        q.activeConsumers &&& ~~~consumerTransmission ∧
      (frameQueueV2UnregisterConsumer format consumerTransmission q).1.count = q.count := by
  have hidx : consumerIdx consumerTransmission = some 0 := rfl
  rw [frameQueueV2UnregisterConsumer, if_pos (usable_of_count hformat hc), hidx]
  exact ⟨sweepReady_activeConsumers _ _, sweepReady_count _ _⟩

/-- A call on a queue leaves its consumers as they are, or has initialised it without any. -/
def KeepsConsumers (q' q : FrameQueueV2) : Prop :=
  q'.activeConsumers = q.activeConsumers ∧ q'.count = q.count ∨
    q.count = 0 ∧ q'.activeConsumers = 0

theorem KeepsConsumers.refl (q : FrameQueueV2) : KeepsConsumers q q := .inl ⟨rfl, rfl⟩

theorem KeepsConsumers.trans (h' : KeepsConsumers q'' q') (h : KeepsConsumers q' q) :
    KeepsConsumers q'' q := by
  rcases h' with ⟨hactive', hcount'⟩ | ⟨hzero, hactive'⟩
  · rcases h with ⟨hactive, hcount⟩ | ⟨hzero, hactive⟩
    · exact .inl ⟨hactive'.trans hactive, hcount'.trans hcount⟩
    · exact .inr ⟨hzero, hactive'.trans hactive⟩
  · rcases h with ⟨-, hcount⟩ | ⟨hzero', -⟩
    · exact .inr ⟨hcount ▸ hzero, hactive'⟩
    · exact .inr ⟨hzero', hactive'⟩

theorem clearAll_keepsConsumers (q : FrameQueueV2) :
    KeepsConsumers (frameQueueV2ClearAll q) q := by
  unfold frameQueueV2ClearAll
  split
  · exact .refl q
  · obtain ⟨hactive, hcount⟩ := cleanFree_masks (clearReady q).freeList.nodes (clearReady q)
    exact .inl ⟨hactive.trans (sweepReady_activeConsumers _ _),
      hcount.trans (sweepReady_count _ _)⟩

theorem init_keepsConsumers (format : ImageFormat) (semaphore : Bool)
    (answer : ℕ → Option NodeId) (q : FrameQueueV2) :
    KeepsConsumers (frameQueueV2Init format semaphore answer q).1 q := by
  unfold frameQueueV2Init
  split
  · exact .refl q
  split
  · exact .refl q
  rename_i hc
  refine .inr ⟨Nat.eq_zero_of_not_pos hc, ?_⟩
  dsimp only
  split
  · exact (createNodes_lists _ _ ⟨rfl, rfl⟩).2.2.2
  · rfl

theorem init_count {semaphore : Bool} {answer : ℕ → Option NodeId}
    (hok : (frameQueueV2Init .h264 semaphore answer q).2 = true) :
    (frameQueueV2Init .h264 semaphore answer q).1.count ≠ 0 := by
  have hindex : ¬(getFrameBufferListIndex .h264 < 0 ∨
      fbListMaxCount ≤ getFrameBufferListIndex .h264) := by decide
  rw [frameQueueV2Init, if_neg hindex] at hok ⊢
  split at hok
  · rename_i hc
    rw [if_pos hc]
    exact Nat.ne_of_gt hc
  · rename_i hc
    rw [if_neg hc]
    dsimp only at hok ⊢
    split at hok
    · rename_i hsemaphore
      rw [if_pos hsemaphore]
      exact (createNodes_count _ _).trans_ne (Nat.succ_ne_zero 5)
    · exact absurd hok Bool.false_ne_true

end Queue

/-! ## All queues -/

section InitAll

variable (answers : QueueAnswers) (queues : ImageFormat → FrameQueueV2)

theorem initQueue_self (format : ImageFormat) :
    (initQueue answers format queues).1 format =
      (frameQueueV2Init format (answers.semaphore format) (answers.node format)
        (queues format)).1 :=
  Function.update_self ..

theorem initQueue_of_ne {format f : ImageFormat} (hf : f ≠ format) :
    (initQueue answers format queues).1 f = queues f :=
  Function.update_of_ne hf ..

theorem initQueue_keepsConsumers (format f : ImageFormat) :
    KeepsConsumers ((initQueue answers format queues).1 f) (queues f) := by
  by_cases hf : f = format
  · subst hf
    rw [initQueue_self]
    exact init_keepsConsumers _ _ _ _
  · rw [initQueue_of_ne answers queues hf]
    exact .refl _

theorem initAll_keepsConsumers (f : ImageFormat) :
    KeepsConsumers ((frameQueueV2InitAll answers queues).1 f) (queues f) := by
  have hmjpeg := initQueue_keepsConsumers answers queues .mjpeg f
  have hh264 := initQueue_keepsConsumers answers (initQueue answers .mjpeg queues).1 .h264 f
  have hyuv := initQueue_keepsConsumers answers
    (initQueue answers .h264 (initQueue answers .mjpeg queues).1).1 .yuv f
  unfold frameQueueV2InitAll
  dsimp only
  split
  · split
    · exact hyuv.trans (hh264.trans hmjpeg)
    · exact hh264.trans hmjpeg
  · exact hmjpeg

theorem initAll_count (hok : (frameQueueV2InitAll answers queues).2 = true) :
    ((frameQueueV2InitAll answers queues).1 .h264).count ≠ 0 := by
  unfold frameQueueV2InitAll at hok ⊢
  dsimp only at hok ⊢
  split at hok
  · split at hok
    · rename_i hmjpeg hh264
      rw [if_pos hmjpeg, if_pos hh264]
      have hother : ImageFormat.h264 ≠ .yuv := nofun
      rw [initQueue_of_ne _ _ hother, initQueue_self]
      exact init_count hh264
    · rename_i hh264
      exact absurd hok hh264
  · rename_i hmjpeg
    exact absurd hok hmjpeg

end InitAll

/-! ## One call -/

namespace Devices

variable {s : Devices} {call : DeviceCall}

theorem Consistent.registered_iff (h : s.Consistent) : s.Registered ↔ s.wifiOpen = true := by
  constructor
  · rintro ⟨info, -, hconsumes⟩
    by_cases hformat : info.transferFormat = .h264
    · exact h.h264.mp (hformat ▸ hconsumes)
    · exact absurd hconsumes (h.other _ hformat)
  · intro hopen
    obtain ⟨info, hinfo, hformat⟩ := h.format hopen
    exact ⟨info, hinfo, hformat ▸ h.h264.mpr hopen⟩

theorem TransferReady.cameraOn (h : s.TransferReady) : s.CameraOn :=
  h.imp fun _ ⟨hinfo, _, hhandle⟩ => ⟨hinfo, hhandle⟩

/-- The devices after the registration on the H264 queue and the transfer have changed. -/
def write (s : Devices) (q : FrameQueueV2) (wifiOpen : Bool) : Devices :=
  { s with queues := Function.update s.queues .h264 q, wifiOpen := wifiOpen }

theorem Consistent.write (h : s.Consistent) (hcamera : s.CameraOn) {q : FrameQueueV2}
    {wifiOpen : Bool} (hcount : q.count = (s.queues .h264).count)
    (hconsumes : q.activeConsumers &&& consumerTransmission ≠ 0 ↔ wifiOpen = true) :
    (s.write q wifiOpen).Consistent where
  h264 := by
    show (Function.update s.queues .h264 q .h264).activeConsumers &&& _ ≠ 0 ↔ _
    rw [Function.update_self]
    exact hconsumes
  other format hformat := by
    show ¬(Function.update s.queues .h264 q format).activeConsumers &&& _ ≠ 0
    rw [Function.update_of_ne hformat]
    exact h.other format hformat
  format _ := by
    obtain ⟨info, hinfo, hhandle⟩ := hcamera
    exact ⟨info, hinfo, h.camera info hinfo hhandle⟩
  camera := h.camera
  count _ := by
    show (Function.update s.queues .h264 q .h264).count ≠ 0
    rw [Function.update_self, hcount]
    exact h.count (.inr hcamera)

theorem Consistent.registered_write (h : s.Consistent) (hcamera : s.CameraOn) {q : FrameQueueV2}
    {wifiOpen : Bool} :
    (s.write q wifiOpen).Registered ↔ q.activeConsumers &&& consumerTransmission ≠ 0 := by
  obtain ⟨info, hinfo, hsome⟩ := hcamera
  have hqueue : (s.write q wifiOpen).queues info.transferFormat = q := by
    show Function.update s.queues .h264 q info.transferFormat = q
    rw [h.camera info hinfo hsome, Function.update_self]
  unfold Registered Consumes
  constructor
  · rintro ⟨j, hj, hconsumes⟩
    obtain rfl : info = j := Option.some.inj (hinfo.symm.trans hj)
    exact hqueue ▸ hconsumes
  · intro hconsumes
    exact ⟨info, hinfo, hqueue.symm ▸ hconsumes⟩

/-- The transfer is turned on with the camera, or not at all. -/
theorem Consistent.turnOn (h : s.Consistent) (opened : Bool) :
    ¬s.TransferReady ∧ yangipcVideoTransferTurnOn opened s = (s, false) ∨
      s.TransferReady ∧ ∃ q, q.count = (s.queues .h264).count ∧
        q.activeConsumers = (s.queues .h264).activeConsumers ||| consumerTransmission ∧
        yangipcVideoTransferTurnOn opened s = (s.write q (s.wifiOpen || opened), opened) := by
  by_cases hready : s.TransferReady
  · obtain ⟨info, hinfo, hcb, hsome⟩ := hready
    have hcamera : s.CameraOn := ⟨info, hinfo, hsome⟩
    have hfalse : ¬info.videoTransferCb = false := by simp [hcb]
    have hnone : ¬info.handle.isNone = true := by simp [Option.isSome_iff_ne_none.mp hsome]
    have hother : ImageFormat.h264 ≠ .other := nofun
    obtain ⟨hactive, hcount⟩ := register_masks hother (h.count (.inr hcamera))
    refine .inr ⟨⟨info, hinfo, hcb, hsome⟩, _, hcount, hactive, ?_⟩
    simp only [yangipcVideoTransferTurnOn, hinfo, if_neg hfalse, if_neg hnone,
      h.camera info hinfo hsome, Devices.write]
  · refine .inl ⟨hready, ?_⟩
    unfold yangipcVideoTransferTurnOn
    cases hinfo : s.info with
    | none => rfl
    | some info =>
      dsimp only
      split
      · rfl
      · rename_i hcb
        refine if_pos (Option.isNone_iff_eq_none.mpr ?_)
        exact Option.not_isSome_iff_eq_none.mp fun hsome =>
          hready ⟨info, hinfo, by simpa using hcb, hsome⟩

/-- The transfer is turned off with the camera, or not at all. -/
theorem Consistent.turnOff (h : s.Consistent) (closed : Bool) :
    ¬s.CameraOn ∧ yangipcVideoTransferTurnOff closed s = (s, true) ∨
      s.CameraOn ∧ ∃ q, q.count = (s.queues .h264).count ∧
        q.activeConsumers = (s.queues .h264).activeConsumers &&& ~~~consumerTransmission ∧
        yangipcVideoTransferTurnOff closed s = (s.write q (s.wifiOpen && !closed), closed) := by
  by_cases hcamera : s.CameraOn
  · obtain ⟨info, hinfo, hsome⟩ := hcamera
    have hnone : ¬info.handle.isNone = true := by simp [Option.isSome_iff_ne_none.mp hsome]
    have hother : ImageFormat.h264 ≠ .other := nofun
    obtain ⟨hactive, hcount⟩ :=
      unregister_masks hother (h.count (.inr ⟨info, hinfo, hsome⟩))
    refine .inr ⟨⟨info, hinfo, hsome⟩, _, hcount, hactive, ?_⟩
    simp only [yangipcVideoTransferTurnOff, hinfo, if_neg hnone, h.camera info hinfo hsome,
      Devices.write]
  · refine .inl ⟨hcamera, ?_⟩
    unfold yangipcVideoTransferTurnOff
    cases hinfo : s.info with
    | none => rfl
    | some info =>
      refine if_pos (Option.isNone_iff_eq_none.mpr ?_)
      exact Option.not_isSome_iff_eq_none.mp fun hsome => hcamera ⟨info, hinfo, hsome⟩

/-- The camera and the queues may change as long as the consumers do not. -/
theorem Consistent.cameraChange {i j : DbDeviceInfo} {queues queues' : ImageFormat → FrameQueueV2}
    {wifiOpen : Bool} (h : Consistent ⟨some i, queues, wifiOpen⟩)
    (hkeeps : ∀ format, KeepsConsumers (queues' format) (queues format))
    (hformat : i.transferFormat = .h264 → j.transferFormat = .h264)
    (hcamera : j.handle.isSome = true → j.transferFormat = .h264 ∧ (queues' .h264).count ≠ 0) :
    Consistent ⟨some j, queues', wifiOpen⟩ where
  h264 := by
    show (queues' .h264).activeConsumers &&& _ ≠ 0 ↔ _
    rcases hkeeps .h264 with ⟨hactive, -⟩ | ⟨hzero, hactive⟩
    · rw [hactive]
      exact h.h264
    · rw [hactive]
      exact iff_of_false (fun hne => hne BitVec.zero_and) fun hopen => h.count (.inl hopen) hzero
  other format hne := by
    show ¬(queues' format).activeConsumers &&& _ ≠ 0
    rcases hkeeps format with ⟨hactive, -⟩ | ⟨-, hactive⟩
    · rw [hactive]
      exact h.other format hne
    · rw [hactive]
      exact fun hne => hne BitVec.zero_and
  format hopen := by
    obtain ⟨_, ⟨⟩, hi⟩ := h.format hopen
    exact ⟨j, rfl, hformat hi⟩
  camera := by
    rintro _ ⟨⟩ hsome
    exact (hcamera hsome).1
  count := by
    rintro (hopen | ⟨_, ⟨⟩, hsome⟩)
    · rcases hkeeps .h264 with ⟨-, hcount⟩ | ⟨hzero, -⟩
      · exact hcount.trans_ne (h.count (.inl hopen))
      · exact absurd hzero (h.count (.inl hopen))
    · exact (hcamera hsome).2

/-- The callback has no part in the registration. -/
theorem Consistent.setCallback (h : s.Consistent) (cb : Bool) :
    (yangipcDevicesSetCameraTransferCallback cb s).Consistent := by
  obtain ⟨_ | i, queues, wifiOpen⟩ := s
  · exact h
  · refine h.cameraChange (fun format => .refl _) id fun hsome => ?_
    exact ⟨h.camera i rfl hsome, h.count (.inr ⟨i, rfl, hsome⟩)⟩

/-- Turning the camera on registers nobody. -/
theorem Consistent.cameraTurnOn (h : s.Consistent) (parameters : CameraParameters)
    (answers : QueueAnswers) (answer : DvpAnswer) :
    (yangipcCameraTurnOn parameters answers answer s).1.Consistent := by
  obtain ⟨_ | i, queues, wifiOpen⟩ := s
  · exact h
  have hkeeps := initAll_keepsConsumers answers queues
  simp only [yangipcCameraTurnOn]
  split
  · exact h
  rename_i hoff
  split
  · rename_i hok
    have hcount := initAll_count answers queues hok
    unfold yangipcCameraOpen
    split
    · exact h.cameraChange hkeeps (fun _ => rfl) fun _ => ⟨rfl, hcount⟩
    · exact h.cameraChange hkeeps id fun hsome => absurd hsome hoff
  · exact h.cameraChange hkeeps id fun hsome => absurd hsome hoff

/-- Turning the camera off leaves the registration as it is. -/
theorem Consistent.cameraTurnOff (h : s.Consistent) (closed deleted : Bool) :
    (yangipcCameraTurnOff closed deleted s).1.Consistent := by
  obtain ⟨_ | i, queues, wifiOpen⟩ := s
  · exact h
  simp only [yangipcCameraTurnOff]
  split
  · exact h
  split
  · exact h.cameraChange (fun format => clearAll_keepsConsumers _) id nofun
  · exact h

/-- **A call keeps the invariant** if the transfer is opened and closed as it is asked to. -/
theorem Consistent.next (h : s.Consistent) (hserved : s.Served call) :
    (s.next call).Consistent := by
  cases call with
  | setCallback cb => exact h.setCallback cb
  | cameraTurnOn parameters answers answer => exact h.cameraTurnOn parameters answers answer
  | cameraTurnOff closed deleted => exact h.cameraTurnOff closed deleted
  | transferTurnOn opened =>
    show (yangipcVideoTransferTurnOn opened s).1.Consistent
    rcases h.turnOn opened with ⟨-, heq⟩ | ⟨hready, q, hcount, hactive, heq⟩
    · rw [heq]
      exact h
    · rw [heq]
      refine h.write hready.cameraOn hcount (iff_of_true ?_ ?_)
      · rw [hactive]
        exact or_consumes _
      · rw [Bool.or_eq_true]
        exact (hserved hready).symm
  | transferTurnOff closed =>
    show (yangipcVideoTransferTurnOff closed s).1.Consistent
    rcases h.turnOff closed with ⟨-, heq⟩ | ⟨hcamera, q, hcount, hactive, heq⟩
    · rw [heq]
      exact h
    · rw [heq]
      refine h.write hcamera hcount (iff_of_false ?_ ?_)
      · rw [hactive]
        exact and_not_consumes _
      · rcases hserved hcamera with hclosed | hclosed <;> simp [hclosed]

/-- **One call** keeps its promise if and only if the transfer is opened and closed as it is asked
to. -/
theorem inStep_iff (h : s.Consistent) : s.InStep call ↔ s.Served call := by
  constructor
  · rintro ⟨hregistered, -⟩
    cases call with
    | transferTurnOn opened =>
      intro hready
      rcases h.turnOn opened with ⟨hnot, -⟩ | ⟨-, q, -, hactive, heq⟩
      · exact absurd hready hnot
      · -- the consumer is registered in any case
        have hnext : s.next (.transferTurnOn opened) = s.write q (s.wifiOpen || opened) :=
          congrArg Prod.fst heq
        rw [hnext, h.registered_write hready.cameraOn, hactive] at hregistered
        have hopen : (s.wifiOpen || opened) = true := hregistered.mp (or_consumes _)
        exact (Bool.or_eq_true _ _ ▸ hopen).symm
    | transferTurnOff closed =>
      intro hcamera
      rcases h.turnOff closed with ⟨hnot, -⟩ | ⟨-, q, -, hactive, heq⟩
      · exact absurd hcamera hnot
      · -- and here in no case
        have hnext : s.next (.transferTurnOff closed) = s.write q (s.wifiOpen && !closed) :=
          congrArg Prod.fst heq
        rw [hnext, h.registered_write hcamera, hactive] at hregistered
        have hclosed : ¬(s.wifiOpen && !closed) = true :=
          fun hopen => and_not_consumes _ (hregistered.mpr hopen)
        revert hclosed
        cases s.wifiOpen <;> cases closed <;> simp
    | setCallback | cameraTurnOn | cameraTurnOff => trivial
  · intro hserved
    refine ⟨(h.next hserved).registered_iff, ?_⟩
    rintro opened rfl hfailed format
    show ((yangipcVideoTransferTurnOn opened s).1.queues format).activeConsumers = _
    rcases h.turnOn opened with ⟨-, heq⟩ | ⟨hready, q, hcount, hactive, heq⟩
    · rw [heq]
    · rw [heq] at hfailed ⊢
      -- the transfer was open already, and the consumer registered
      have hopen : s.wifiOpen = true :=
        (hserved hready).resolve_left (by simp [show opened = false from hfailed])
      show (Function.update s.queues .h264 q format).activeConsumers = _
      by_cases hformat : format = .h264
      · subst hformat
        rw [Function.update_self, hactive, or_eq_self (h.h264.mpr hopen)]
      · rw [Function.update_of_ne hformat]

theorem Idle.consistent (h : s.Idle) : s.Consistent where
  h264 := by simp [h.consumers .h264, h.wifi]
  other format _ := h.consumers format
  format hopen := absurd hopen (by simp [h.wifi])
  camera info hinfo hhandle := absurd ⟨info, hinfo, hhandle⟩ h.camera
  count := by
    rintro (hopen | hcamera)
    · exact absurd hopen (by simp [h.wifi])
    · exact absurd hcamera h.camera

/-- **Every run.**  The consumer is registered exactly while the transfer is open, and stays
unregistered where the transfer cannot be opened, if and only if the transfer is opened and closed
as it is asked to. -/
theorem devices_inStep_iff (hidle : s.Idle) (calls : List DeviceCall) :
    Along Devices.next InStep s calls ↔ Along Devices.next Served s calls :=
  along_congr (B := Consistent) (fun _ hs _ _ => inStep_iff hs)
    (fun _ hs _ _ hstep => hs.next ((inStep_iff hs).mp hstep)) s hidle.consistent

/-- The devices after `yangipc_devices_init` and the start of a service. -/
def start : Devices where
  info := some ⟨none, .other, true⟩
  queues _ := .boot fun _ => .zero
  wifiOpen := false

theorem idle_start : start.Idle where
  camera := by
    rintro ⟨_, ⟨⟩, hsome⟩
    exact absurd hsome nofun
  wifi := rfl
  consumers _ h := h BitVec.zero_and

/-- The camera is turned on for H264; the transfer is opened or not. -/
def turnOnH264 (opened : Bool) : DeviceCommand :=
  .turnOn ⟨0, 864, 480, 1, 0, 0xFFFF⟩ ⟨fun _ => true, fun _ i => some i⟩ ⟨some 1, true⟩ opened

/-- A transfer that cannot be opened leaves its consumer on the queue. -/
theorem not_inStep_turnOn :
    ¬∀ commands : List DeviceCommand,
      Along Devices.next InStep start (commands.flatMap DeviceCommand.calls) := by
  intro h
  have hlast := (h [turnOnH264 false]).2.1
  have hcamera := idle_start.consistent.cameraTurnOn ⟨0, 864, 480, 1, 0, 0xFFFF⟩
    ⟨fun _ => true, fun _ i => some i⟩ ⟨some 1, true⟩
  rcases (inStep_iff hcamera).mp hlast ⟨_, rfl, rfl, rfl⟩ with hopened | hopen
  · exact absurd hopened nofun
  · exact absurd hopen nofun

/-- A transfer that is opened and closed. -/
theorem devices_inStep_iff_opened :
    Along Devices.next InStep start
      ([turnOnH264 true, .disconnected true].flatMap DeviceCommand.calls) := by
  refine (devices_inStep_iff idle_start _).mpr ⟨trivial, ?_, ?_, trivial⟩
  · exact fun _ => .inl rfl
  · exact fun _ => .inl rfl

end Devices

end Commands

end YangIpc
