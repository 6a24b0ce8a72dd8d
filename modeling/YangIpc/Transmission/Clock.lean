import YangIpc.Transmission.Packet

/-!
# The clock of the packets

`yangipc_transmission_get_milliseconds` of `yangipc_transmission.c`, in the build for the CM33
core.  From the eighth hour of the clock on, eight hours are subtracted.  A difference of two
timestamps is the time between them unless that moment lies in between.

## Main definitions

* `Timeval`: a reading of the clock
* `yangipcTransmissionGetMilliseconds`: the function
* `packedTimestamp`: the timestamp that a packet carries

## Main results

* `getMilliseconds_eq`: the timestamp of a reading
* `timestamps_elapse_iff`: the pairs of readings with the right difference
-/

namespace YangIpc

namespace Transmission

open Bytes

/-- `struct timeval`, as `bk_rtc_gettimeofday` fills it in. -/
structure Timeval where
  tvSec : ℕ
  tvUsec : ℕ
  usec_lt : tvUsec < 1000000

namespace Timeval

/-- The microseconds since the clock was at zero. -/
def microseconds (tv : Timeval) : ℕ := tv.tvSec * 1000000 + tv.tvUsec

/-- The whole milliseconds. -/
def milliseconds (tv : Timeval) : ℕ := tv.microseconds / 1000

end Timeval

/-- `time_offset`. -/
def timeOffset : ℕ := 8 * 3600

/-- `yangipc_transmission_get_milliseconds`; a `long` has 32 bits. -/
def yangipcTransmissionGetMilliseconds (tv : Timeval) : UInt32 :=
  let msTime := UInt32.ofNat (tv.tvUsec / 1000)
  if tv.tvSec < timeOffset then UInt32.ofNat tv.tvSec * 1000 + msTime
  else UInt32.ofNat (tv.tvSec - timeOffset) * 1000 + msTime

/-- The timestamp in the header of a payload that is packed at a reading of the clock. -/
def packedTimestamp (hndCrc8 : List UInt8 → UInt8) (tv : Timeval) (channel : Channel)
    (data : List UInt8) : UInt32 :=
  let packed := yangipcTransmissionPack hndCrc8 (yangipcTransmissionGetMilliseconds tv) channel data
  (DbTransHead.read (packed.packed data.length)).timestamp

variable {tv tv₁ tv₂ : Timeval}

theorem packedTimestamp_eq (hndCrc8 : List UInt8 → UInt8) (tv : Timeval) (channel : Channel)
    (data : List UInt8) :
    packedTimestamp hndCrc8 tv channel data = yangipcTransmissionGetMilliseconds tv := by
  rw [packedTimestamp, packed_eq, DbTransHead.read_write]
  rfl

/-- Both branches, by the milliseconds of the reading. -/
theorem getMilliseconds_eq (tv : Timeval) :
    yangipcTransmissionGetMilliseconds tv =
      UInt32.ofNat tv.milliseconds - if tv.tvSec < timeOffset then 0 else 28800000 := by
  have hmilliseconds : tv.milliseconds = tv.tvSec * 1000 + tv.tvUsec / 1000 := by
    unfold Timeval.milliseconds Timeval.microseconds
    omega
  rw [hmilliseconds, UInt32.ofNat_add, UInt32.ofNat_mul]
  unfold yangipcTransmissionGetMilliseconds
  dsimp only
  split
  · grind
  · -- the seconds behind the offset
    rename_i hlate
    obtain ⟨k, hk⟩ := Nat.exists_eq_add_of_le (Nat.not_lt.mp hlate)
    have hoffset : UInt32.ofNat timeOffset = 28800 := rfl
    rw [hk, Nat.add_sub_cancel_left, UInt32.ofNat_add, hoffset]
    grind

/-- **Timestamps elapse** between two readings if and only if the clock did not pass the offset
between them. -/
theorem timestamps_elapse_iff (hndCrc8 : List UInt8 → UInt8) (channel₁ channel₂ : Channel)
    (data₁ data₂ : List UInt8) (hle : tv₁.microseconds ≤ tv₂.microseconds) :
    packedTimestamp hndCrc8 tv₂ channel₂ data₂ - packedTimestamp hndCrc8 tv₁ channel₁ data₁ =
        UInt32.ofNat (tv₂.milliseconds - tv₁.milliseconds) ↔
      (tv₁.tvSec < timeOffset ↔ tv₂.tvSec < timeOffset) := by
  have hmilliseconds : tv₁.milliseconds ≤ tv₂.milliseconds := Nat.div_le_div_right hle
  obtain ⟨k, hk⟩ := Nat.exists_eq_add_of_le hmilliseconds
  have hseconds : tv₁.tvSec ≤ tv₂.tvSec := by
    have h₁ := tv₁.usec_lt
    have h₂ := tv₂.usec_lt
    unfold Timeval.microseconds at hle
    omega
  rw [packedTimestamp_eq, packedTimestamp_eq, getMilliseconds_eq, getMilliseconds_eq, hk,
    Nat.add_sub_cancel_left, UInt32.ofNat_add]
  by_cases h₁ : tv₁.tvSec < timeOffset <;> by_cases h₂ : tv₂.tvSec < timeOffset
  · rw [if_pos h₁, if_pos h₂]
    exact iff_of_true (by grind) (iff_of_true h₁ h₂)
  · -- eight hours are missing
    rw [if_pos h₁, if_neg h₂]
    refine iff_of_false (fun h => ?_) fun h => h₂ (h.mp h₁)
    have hzero : (28800000 : UInt32) = 0 := by grind
    exact absurd hzero (by decide)
  · exact absurd (Nat.lt_of_le_of_lt hseconds h₂) h₁
  · rw [if_neg h₁, if_neg h₂]
    exact iff_of_true (by grind) (iff_of_false h₁ h₂)

/-- The last second before the offset, and the first one behind. -/
def offsetReached (tvSec : ℕ) : Timeval := ⟨tvSec, 0, by decide⟩

/-- When the clock reaches eight hours, the timestamps begin anew. -/
theorem not_timestamps_elapse_offset :
    ¬∀ (hndCrc8 : List UInt8 → UInt8) (channel₁ channel₂ : Channel) (data₁ data₂ : List UInt8)
      (tv₁ tv₂ : Timeval), tv₁.microseconds ≤ tv₂.microseconds →
        packedTimestamp hndCrc8 tv₂ channel₂ data₂ - packedTimestamp hndCrc8 tv₁ channel₁ data₁ =
          UInt32.ofNat (tv₂.milliseconds - tv₁.milliseconds) := by
  intro h
  have hstamps := h (fun _ => 0) (yangipcTransmissionMalloc 0 0 (fun _ => 0) fun _ => 0)
    (yangipcTransmissionMalloc 0 0 (fun _ => 0) fun _ => 0) [] [] (offsetReached 28799)
    (offsetReached 28800) (by decide)
  rw [packedTimestamp_eq, packedTimestamp_eq] at hstamps
  exact absurd hstamps (by decide)

/-- A second passes before the offset. -/
theorem timestamps_elapse_iff_second :
    packedTimestamp (fun _ => 0) (offsetReached 1)
        (yangipcTransmissionMalloc 0 0 (fun _ => 0) fun _ => 0) [] -
      packedTimestamp (fun _ => 0) (offsetReached 0)
        (yangipcTransmissionMalloc 0 0 (fun _ => 0) fun _ => 0) [] = 1000 :=
  (timestamps_elapse_iff _ _ _ _ _ (by decide)).mpr (by decide)

end Transmission

end YangIpc
