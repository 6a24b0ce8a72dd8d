import YangIpc.Library.Bytes
import YangIpc.Library.Run
import Mathlib.Data.List.Flatten

/-!
# The audio buffer

`yang_put_data`, `yang_init_data` and the audio part of `yang_bk_video_thread` of
`YangIpcEncoder.c`.  The tests of `yang_put_data` and of the thread are made without the mutex, so
that each of them is a step of its own; a section under the mutex is one step.  A test reads no
more than `audioSize`, which a section writes once, so that a test during a section is one before
or after it.

## Main definitions

* `YangAudioData`, `yangPutDataFits`, `yangPutDataAppend`, `yangInitData`, `hasBlock`,
  `takeBlock`: the functions
* `Represents d l`: the buffer holds the bytes `l`
* `Fifo`, `Fifo.next`: the producer and the thread around the buffer
* `Fifo.Streams`: the blocks handed over and the bytes in the buffer are the chunks

## Main results

* `Represents.append`, `Represents.take`: the buffer is a queue of bytes
* `streams_of_reaches`: the stream is kept in every interleaving
-/

open Bytes Transition

namespace YangIpc

namespace Encoder

/-- `YangAudioData`, without its mutex. -/
structure YangAudioData where
  capacity : Int16
  audioSize : Int16
  audioBuffer : Memory

/-- An `int16_t` as an operand beside an `unsigned int`. -/
def toUnsigned (x : Int16) : UInt32 := x.toInt32.toUInt32

/-- The test of `yang_put_data`: whether a chunk of `len` bytes is not dropped. -/
def yangPutDataFits (data : YangAudioData) (len : UInt32) : Bool :=
  !(toUnsigned data.audioSize + len > toUnsigned data.capacity)

/-- `yang_put_data` under the mutex; `none` if a byte is copied outside the buffer. -/
def yangPutDataAppend (data : YangAudioData) (audioData : List UInt8) : Option YangAudioData :=
  if 0 ≤ data.audioSize.toInt ∧
      data.audioSize.toInt + audioData.length ≤ data.capacity.toInt then
    some { data with
      audioBuffer := store data.audioBuffer data.audioSize.toInt.toNat audioData
      audioSize :=
        (toUnsigned data.audioSize + UInt32.ofNat audioData.length).toUInt16.toInt16 }
  else none

/-- `yang_init_data`. -/
def yangInitData (data : YangAudioData) : YangAudioData := { data with audioSize := 0 }

/-- The test of the thread, with `Yang_Audio_FrameSize`. -/
def hasBlock (data : YangAudioData) : Bool := 160 ≤ data.audioSize

/-- The thread under the mutex: the payload of `onAudioData`, and the buffer behind it. -/
def takeBlock (data : YangAudioData) : List UInt8 × YangAudioData :=
  let size := data.audioSize - 160
  (load data.audioBuffer 0 160,
    if size < 0 then { data with audioSize := 0 }
    else if 0 < size then
      { data with
        audioSize := size
        audioBuffer := store data.audioBuffer 0 (load data.audioBuffer 160 size.toInt.toNat) }
    else { data with audioSize := size })

/-- The bytes still in the buffer. -/
def YangAudioData.contents (data : YangAudioData) : List UInt8 :=
  load data.audioBuffer 0 data.audioSize.toInt.toNat

/-! ## The buffer as a queue of bytes -/

/-- The buffer of `yang_create_ipcEncoder` holds the bytes `l`. -/
structure Represents (data : YangAudioData) (l : List UInt8) : Prop where
  capacity : data.capacity = 2560
  room : l.length ≤ 2560
  size : data.audioSize = Int16.ofNat l.length
  bytes : load data.audioBuffer 0 l.length = l

theorem toInt_ofNat_of_room {n : ℕ} (h : n ≤ 2560) : (Int16.ofNat n).toInt = n :=
  Int16.toInt_ofNat_of_lt (by omega)

theorem toUnsigned_ofNat {n : ℕ} (h : n ≤ 2560) : toUnsigned (Int16.ofNat n) = UInt32.ofNat n := by
  have hext : (Int16.ofNat n).toInt32 = Int32.ofNat n := by
    apply Int32.toInt.inj
    rw [Int16.toInt_toInt32, toInt_ofNat_of_room h, Int32.toInt_ofNat_of_lt (by omega)]
  rw [toUnsigned, hext, Int32.toUInt32_ofNat']

namespace Represents

variable {data : YangAudioData} {l chunk : List UInt8}

theorem contents (h : Represents data l) : data.contents = l := by
  rw [YangAudioData.contents, h.size, toInt_ofNat_of_room h.room]
  exact h.bytes

/-- The test does not wrap around. -/
theorem fits (h : Represents data l) (hchunk : chunk.length ≤ 2560) :
    yangPutDataFits data (UInt32.ofNat chunk.length) = true ↔ l.length + chunk.length ≤ 2560 := by
  have hroom := h.room
  have hcapacity : toUnsigned data.capacity = 2560 := by
    rw [h.capacity]
    rfl
  have hsum : (UInt32.ofNat (l.length + chunk.length)).toNat = l.length + chunk.length := by
    rw [UInt32.toNat_ofNat', Nat.mod_eq_of_lt (by omega)]
  rw [yangPutDataFits, h.size, hcapacity, toUnsigned_ofNat hroom, ← UInt32.ofNat_add,
    Bool.not_eq_true', decide_eq_false_iff_not, gt_iff_lt, UInt32.lt_iff_toNat_lt, hsum]
  exact Nat.not_lt

/-- A chunk that fits is put behind the bytes in the buffer. -/
theorem append (h : Represents data l) (hroom : l.length + chunk.length ≤ 2560) :
    ∃ data', yangPutDataAppend data chunk = some data' ∧ Represents data' (l ++ chunk) := by
  have hsize : data.audioSize.toInt = l.length := by rw [h.size, toInt_ofNat_of_room h.room]
  have hcapacity : data.capacity.toInt = 2560 := by
    rw [h.capacity]
    rfl
  have hinside : 0 ≤ data.audioSize.toInt ∧
      data.audioSize.toInt + chunk.length ≤ data.capacity.toInt := by omega
  rw [yangPutDataAppend, if_pos hinside]
  refine ⟨_, rfl, h.capacity, ?_, ?_, ?_⟩
  · simpa using hroom
  · show (toUnsigned data.audioSize + UInt32.ofNat chunk.length).toUInt16.toInt16 = _
    rw [h.size, toUnsigned_ofNat h.room, ← UInt32.ofNat_add, UInt32.toUInt16_ofNat',
      UInt16.toInt16_ofNat', List.length_append]
  · show load (store data.audioBuffer data.audioSize.toInt.toNat chunk) 0 _ = _
    rw [hsize, Int.toNat_natCast, List.length_append, load_store, h.bytes]

theorem init (h : Represents data l) : Represents (yangInitData data) [] where
  capacity := h.capacity
  room := Nat.zero_le _
  size := rfl
  bytes := rfl

theorem hasBlock_iff (h : Represents data l) : hasBlock data = true ↔ 160 ≤ l.length := by
  have h160 : (160 : Int16).toInt = 160 := rfl
  rw [hasBlock, decide_eq_true_iff, Int16.le_iff_toInt_le, h.size, toInt_ofNat_of_room h.room, h160]
  omega

/-- The thread hands over the oldest bytes and keeps the others. -/
theorem take (h : Represents data l) (hblock : 160 ≤ l.length) :
    (takeBlock data).1 = l.take 160 ∧ Represents (takeBlock data).2 (l.drop 160) := by
  have hroom := h.room
  obtain ⟨n, hn⟩ := Nat.exists_eq_add_of_le hblock
  have hdrop : (l.drop 160).length = n := by rw [List.length_drop, hn, Nat.add_sub_cancel_left]
  have hbytes : load data.audioBuffer 0 (160 + n) = l := by rw [← hn, h.bytes]
  have hrest : load data.audioBuffer 160 n = l.drop 160 := by rw [← hbytes, drop_load]
  have hsize : data.audioSize - 160 = Int16.ofNat n := by
    rw [h.size, hn, Int16.ofNat_add, Int16.add_comm]
    exact Int16.add_sub_cancel _ _
  have hint : (data.audioSize - 160).toInt = n := by
    rw [hsize, toInt_ofNat_of_room (by omega)]
  -- the branch for a negative size is not reached
  have hnonneg : ¬ data.audioSize - 160 < 0 := by
    rw [Int16.lt_iff_toInt_lt, hint]
    exact Int.not_lt.mpr (Int.natCast_nonneg _)
  constructor
  · rw [← hbytes, take_load (Nat.le_add_right _ _)]
    rfl
  simp only [takeBlock, if_neg hnonneg]
  split
  · refine ⟨h.capacity, by omega, by rw [hdrop, hsize], ?_⟩
    show load (store data.audioBuffer 0 (load data.audioBuffer 160 _)) 0 _ = _
    rw [hint, Int.toNat_natCast, hrest, load_store_self]
  · rename_i hzero
    rw [Int16.lt_iff_toInt_lt, hint] at hzero
    have h0 : (0 : Int16).toInt = 0 := rfl
    obtain rfl : n = 0 := by omega
    rw [List.length_eq_zero_iff.mp hdrop]
    exact ⟨h.capacity, Nat.zero_le _, hsize, rfl⟩

end Represents

/-! ## The producer and the thread -/

/-- The buffer between its producer and the video thread. -/
structure Fifo where
  data : YangAudioData
  /-- The chunk of the producer, between its test and the mutex. -/
  pending : Option (List UInt8)
  /-- The thread is between its test and the mutex. -/
  ready : Bool
  /-- The chunks that have been appended since the last reset. -/
  appended : List (List UInt8)
  /-- The blocks that have been handed over since the last reset. -/
  blocks : List (List UInt8)

/-- What the producer and the thread do. -/
inductive Act
  | offer (chunk : List UInt8)
  | append
  | reset
  | test
  | take

namespace Fifo

/-- The buffer that `yang_create_ipcEncoder` creates: the bytes `malloc` left in it are
arbitrary. -/
def create (buffer : Memory) : Fifo where
  data := ⟨16 * 160, 0, buffer⟩
  pending := none
  ready := false
  appended := []
  blocks := []

/-- What an action leads to, if the producer or the thread can take it. -/
def next (s : Fifo) : Act → Option Fifo
  | .offer chunk =>
    if s.pending = none ∧ chunk.length ≤ 2560 then
      if yangPutDataFits s.data (UInt32.ofNat chunk.length) then
        some { s with pending := some chunk }
      else some s
    else none
  | .append => do
    let chunk ← s.pending
    let data ← yangPutDataAppend s.data chunk
    return { s with data := data, pending := none, appended := s.appended ++ [chunk] }
  | .reset =>
    if s.ready then none
    else some { s with data := yangInitData s.data, appended := [], blocks := [] }
  | .test => if s.ready then none else some { s with ready := hasBlock s.data }
  | .take =>
    if s.ready then
      let (block, data) := takeBlock s.data
      some { s with data := data, ready := false, blocks := s.blocks ++ [block] }
    else none

/-- The actions in any order. -/
def Step (s : Fifo) (act : Act) (t : Fifo) : Prop := s.next act = some t

/-- The blocks and the bytes in the buffer are the chunks, and the buffer is not overrun. -/
structure Streams (s : Fifo) : Prop where
  stream : s.blocks.flatten ++ s.data.contents = s.appended.flatten
  blocks : ∀ block ∈ s.blocks, block.length = 160
  size_nonneg : 0 ≤ s.data.audioSize
  size_le : s.data.audioSize ≤ s.data.capacity

/-- What an action does to the chunk of the producer and to the bytes in the buffer. -/
def Whole (s t : Fifo) : Act → Prop
  | .offer chunk =>
    t.data = s.data ∧
      t.pending = if s.data.contents.length + chunk.length ≤ 2560 then some chunk else none
  | .append =>
    t.pending = none ∧ ∃ chunk, s.pending = some chunk ∧ t.data.contents = s.data.contents ++ chunk
  | .reset => t.pending = s.pending ∧ t.data.contents = []
  | .test => t.pending = s.pending ∧ t.data = s.data
  | .take =>
    t.pending = s.pending ∧ s.data.contents = s.data.contents.take 160 ++ t.data.contents ∧
      t.blocks = s.blocks ++ [s.data.contents.take 160]

/-- The invariant: `l` is in the buffer, there is room for the chunk of the producer, and there is
a block when the thread takes one. -/
structure Holds (s : Fifo) (l : List UInt8) : Prop where
  represents : Represents s.data l
  stream : s.blocks.flatten ++ l = s.appended.flatten
  blocks : ∀ block ∈ s.blocks, block.length = 160
  pending : ∀ chunk, s.pending = some chunk → l.length + chunk.length ≤ 2560
  ready : s.ready = true → 160 ≤ l.length

variable {s t : Fifo} {act : Act} {l : List UInt8} {buffer : Memory}

theorem Holds.create (buffer : Memory) : (create buffer).Holds [] where
  represents := ⟨rfl, Nat.zero_le _, rfl, rfl⟩
  stream := rfl
  blocks := by simp [Fifo.create]
  pending := nofun
  ready := nofun

theorem Holds.streams (h : s.Holds l) : s.Streams where
  stream := by rw [h.represents.contents, h.stream]
  blocks := h.blocks
  size_nonneg := by
    rw [Int16.le_iff_toInt_le, h.represents.size, toInt_ofNat_of_room h.represents.room]
    exact Int.natCast_nonneg _
  size_le := by
    rw [Int16.le_iff_toInt_le, h.represents.size, h.represents.capacity,
      toInt_ofNat_of_room h.represents.room]
    exact Int.ofNat_le.mpr h.represents.room

/-- **An action keeps the invariant.** -/
theorem Holds.step (h : s.Holds l) (hact : s.Step act t) :
    s.Whole t act ∧ ∃ l', t.Holds l' := by
  have hcontents := h.represents.contents
  cases act with
  | offer chunk =>
    simp only [Step, next] at hact
    split at hact
    · rename_i hidle
      have hfits := h.represents.fits hidle.2
      split at hact
      · rename_i htrue
        obtain rfl := Option.some.inj hact
        refine ⟨⟨rfl, ?_⟩, l, ?_⟩
        · rw [hcontents, if_pos (hfits.mp htrue)]
        · refine { h with pending := ?_ }
          rintro _ ⟨⟩
          exact hfits.mp htrue
      · rename_i hfalse
        obtain rfl := Option.some.inj hact
        refine ⟨⟨rfl, ?_⟩, l, h⟩
        rw [hcontents, if_neg (hfits.not.mp hfalse), hidle.1]
    · exact absurd hact nofun
  | append =>
    obtain ⟨chunk, hpending, hact⟩ := Option.bind_eq_some_iff.mp hact
    obtain ⟨data, hdata, hrep⟩ := h.represents.append (h.pending chunk hpending)
    rw [hdata] at hact
    obtain rfl := Option.some.inj hact
    refine ⟨⟨rfl, chunk, hpending, ?_⟩, l ++ chunk, ?_⟩
    · rw [hcontents, hrep.contents]
    · -- the chunk goes behind what was written, and a block that was there still is
      refine ⟨hrep, ?_, h.blocks, nofun, fun hready => ?_⟩
      · rw [List.flatten_append, ← h.stream]
        simp
      · have := h.ready hready
        rw [List.length_append]
        omega
  | reset =>
    simp only [Step, next] at hact
    split at hact
    · exact absurd hact nofun
    · obtain rfl := Option.some.inj hact
      refine ⟨⟨rfl, h.represents.init.contents⟩, [], h.represents.init, rfl, nofun, ?_, ?_⟩
      · intro chunk hpending
        have := h.pending chunk hpending
        simp only [List.length_nil]
        omega
      · rename_i hidle
        exact fun hready => absurd hready hidle
  | test =>
    simp only [Step, next] at hact
    split at hact
    · exact absurd hact nofun
    · obtain rfl := Option.some.inj hact
      exact ⟨⟨rfl, rfl⟩, l, { h with ready := h.represents.hasBlock_iff.mp }⟩
  | take =>
    simp only [Step, next] at hact
    split at hact
    · rename_i hready
      obtain rfl := Option.some.inj hact
      -- the block seen by the test is still there, since only this side takes any
      obtain ⟨hblock, hrep⟩ := h.represents.take (h.ready hready)
      refine ⟨⟨rfl, ?_, ?_⟩, l.drop 160, hrep, ?_, ?_, ?_, nofun⟩
      · rw [hcontents, hrep.contents, List.take_append_drop]
      · rw [hcontents, hblock]
      · simp [hblock, ← h.stream]
      · intro block hmem
        rcases List.mem_append.mp hmem with hmem | hmem
        · exact h.blocks block hmem
        · rw [List.mem_singleton.mp hmem, hblock, List.length_take]
          exact Nat.min_eq_left (h.ready hready)
      · intro chunk hpending
        have := h.pending chunk hpending
        rw [List.length_drop]
        omega
    · exact absurd hact nofun

theorem Holds.of_reaches (h : Reaches Step (Fifo.create buffer) s) : ∃ l, s.Holds l :=
  h.invariant (P := fun s => ∃ l, s.Holds l) ⟨[], .create buffer⟩
    fun _ _ _ ⟨_, hl⟩ hact => (hl.step hact).2

/-- **The audio buffer is a queue of bytes.**  In every interleaving of the producer and the
thread, the blocks handed over since the last reset and the bytes in the buffer are the chunks
appended since, and the size stays between zero and the capacity.  A chunk is kept or dropped as a
whole, and a chunk that is kept can be appended as a whole whatever the thread does before. -/
theorem streams_of_reaches (h : Reaches Step (Fifo.create buffer) s) :
    s.Streams ∧ (∀ act t, s.Step act t → s.Whole t act) ∧
      ∀ chunk, s.pending = some chunk → ∃ t, s.Step .append t := by
  obtain ⟨l, hl⟩ := Holds.of_reaches h
  refine ⟨hl.streams, fun act t hact => (hl.step hact).1, fun chunk hpending => ?_⟩
  obtain ⟨data, hdata, -⟩ := hl.represents.append (hl.pending chunk hpending)
  refine ⟨{ s with data := data, pending := none, appended := s.appended ++ [chunk] }, ?_⟩
  simp [Step, next, hpending, hdata]

/-- A block taken while a second chunk waits for the mutex. -/
def overlapping : List Act :=
  [.offer (List.replicate 200 1), .append, .test, .offer [2, 3], .take, .append]

theorem streams_of_reaches_overlapping : ∃ s : Fifo, s.blocks.length = 1 ∧ s.Streams := by
  have hplay : (play (fun s act => (Fifo.next s act).map (act, ·)) (fun _ _ => true) overlapping
      (Fifo.create fun _ => 0)).any (fun s => s.blocks.length = 1) = true := by decide +kernel
  obtain ⟨s, hs, hlength⟩ := exists_reaches_of_play (fun _ _ _ _ => next_of_labelled) hplay
  have hreach : Reaches Step (Fifo.create fun _ => 0) s := hs.mono fun _ _ _ hact => hact.2
  exact ⟨s, by simpa using hlength, (streams_of_reaches hreach).1⟩

end Fifo

end Encoder

end YangIpc
