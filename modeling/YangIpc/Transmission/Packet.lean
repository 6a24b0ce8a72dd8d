import YangIpc.Library.Bytes
import YangIpc.Library.Framing

/-!
# Packets and channels

The header of a packet, the channel both ends keep, and the functions of
`yangipc_transmission.c` that create a channel and pack a payload.  The numbers of the header are
stored lowest byte first, as on the target (`TRANSMISSION_BIG_ENDIAN` is false).

The clock and the function `hnd_crc8` are outside of the file, so they are arguments.

## Main definitions

* `DbTransHead`, `Channel`: the header and the channel
* `yangipcTransmissionMalloc`, `yangipcTransmissionPack`: the functions
* `packetFormat`: how a packet declares its size

## Main results

* `packed_eq`: the bytes a packed payload leaves in `tbuf`
* `isPacket_packed`: they are a packet
-/

namespace YangIpc

namespace Transmission

open Bytes Framing

/-- `HEAD_SIZE_TOTAL`. -/
def headSizeTotal : ℕ := 16

/-- `HEAD_MAGIC_CODE`. -/
def headMagicCode : UInt16 := 0xF0D5

/-- `HEAD_FLAGS_CRC`. -/
def headFlagsCrc : UInt16 := 1

/-- `db_trans_head_t` without the payload. -/
structure DbTransHead where
  magic : UInt16
  flags : UInt16
  timestamp : UInt32
  sequence : UInt16
  length : UInt16
  crc : UInt8
  reserved0 : UInt8
  reserved1 : UInt8
  reserved2 : UInt8
deriving DecidableEq, Repr

namespace DbTransHead

/-- The header at the head of these bytes. -/
def read (p : List UInt8) : DbTransHead where
  magic := decode16 (p.getD 0 0) (p.getD 1 0)
  flags := decode16 (p.getD 2 0) (p.getD 3 0)
  timestamp := decode32 (p.getD 4 0) (p.getD 5 0) (p.getD 6 0) (p.getD 7 0)
  sequence := decode16 (p.getD 8 0) (p.getD 9 0)
  length := decode16 (p.getD 10 0) (p.getD 11 0)
  crc := p.getD 12 0
  reserved0 := p.getD 13 0
  reserved1 := p.getD 14 0
  reserved2 := p.getD 15 0

/-- The bytes of a header. -/
def write (head : DbTransHead) : List UInt8 :=
  encode16 head.magic ++ encode16 head.flags ++ encode32 head.timestamp ++
    encode16 head.sequence ++ encode16 head.length ++
    [head.crc, head.reserved0, head.reserved1, head.reserved2]

@[simp] theorem length_write (head : DbTransHead) : head.write.length = headSizeTotal := rfl

@[simp] theorem read_write (head : DbTransHead) (rest : List UInt8) :
    read (head.write ++ rest) = head := by
  simp [read, write, encode16, encode32]

/-- Only the first sixteen bytes are read. -/
@[simp] theorem read_take (p : List UInt8) : read (p.take headSizeTotal) = read p := by
  simp [read, headSizeTotal, List.getD_eq_getElem?_getD]

theorem read_take_of_le {n : ℕ} (h : headSizeTotal ≤ n) (p : List UInt8) :
    read (p.take n) = read p := by
  rw [← read_take (p.take n), List.take_take, Nat.min_eq_left h, read_take]

theorem read_append {p : List UInt8} (h : headSizeTotal ≤ p.length) (rest : List UInt8) :
    read (p ++ rest) = read p := by
  rw [← read_take (p ++ rest), List.take_append_of_le_length h, read_take]

end DbTransHead

/-- The format of packets: a header with the right magic code declares the length of the
payload. -/
def packetFormat : Format UInt8 where
  head := headSizeTotal
  size p :=
    if (DbTransHead.read p).magic = headMagicCode then
      some (headSizeTotal + (DbTransHead.read p).length.toNat)
    else none
  head_pos := by decide
  size_take p := by rw [DbTransHead.read_take]
  head_le_of_size p n h := by
    split at h
    · simp only [Option.some.injEq] at h
      omega
    · simp at h

theorem packetFormat_size {p : List UInt8} (h : (DbTransHead.read p).magic = headMagicCode) :
    packetFormat.size p = some (headSizeTotal + (DbTransHead.read p).length.toNat) := if_pos h

theorem packetFormat_size_none {p : List UInt8}
    (h : (DbTransHead.read p).magic ≠ headMagicCode) : packetFormat.size p = none := if_neg h

/-! ## Channels -/

/-- `db_channel_t`, with the memory `cbuf` and `tbuf` point to. -/
structure Channel where
  cbuf : Memory
  csize : UInt16
  ccount : UInt16
  sequence : UInt16
  tbuf : Memory
  tsize : UInt16

/-- `yangipc_transmission_malloc`, when its three allocations succeed; `cbuf` and `tbuf` are the
contents of the new buffers. -/
def yangipcTransmissionMalloc (maxRxSize maxTxSize : UInt16) (cbuf tbuf : Memory) : Channel where
  cbuf := cbuf
  csize := UInt16.ofNat (maxRxSize.toNat + headSizeTotal)
  ccount := 0
  sequence := 0
  tbuf := tbuf
  tsize := maxTxSize

/-! ## Packing -/

/-- The header `pack` writes. -/
def packHead (hndCrc8 : List UInt8 → UInt8) (milliseconds : UInt32) (sequence : UInt16)
    (data : List UInt8) : DbTransHead where
  magic := headMagicCode
  flags := headFlagsCrc
  timestamp := milliseconds
  sequence := sequence
  length := UInt16.ofNat data.length
  crc := hndCrc8 data
  reserved0 := 0
  reserved1 := 0
  reserved2 := 0

/-- `yangipc_transmission_pack`: the header, then the payload, are written to `tbuf`. -/
def yangipcTransmissionPack (hndCrc8 : List UInt8 → UInt8) (milliseconds : UInt32)
    (channel : Channel) (data : List UInt8) : Channel :=
  let sequence := channel.sequence + 1
  let tbuf := store channel.tbuf 0 (packHead hndCrc8 milliseconds sequence data).write
  { channel with sequence := sequence, tbuf := store tbuf headSizeTotal data }

/-- The bytes `yangipc_transmission_pack_send` hands over after packing `length` bytes. -/
def Channel.packed (channel : Channel) (length : ℕ) : List UInt8 :=
  load channel.tbuf 0 (headSizeTotal + length)

variable {hndCrc8 : List UInt8 → UInt8} {milliseconds : UInt32} {channel : Channel}
  {sequence : UInt16} {data : List UInt8}

/-- **A packed payload is its header followed by its bytes.** -/
theorem packed_eq :
    (yangipcTransmissionPack hndCrc8 milliseconds channel data).packed data.length =
      (packHead hndCrc8 milliseconds (channel.sequence + 1) data).write ++ data := by
  rw [Channel.packed, yangipcTransmissionPack, load_store]
  exact congrArg (· ++ data) load_store_self

theorem isPacket_packed (h : data.length < 65536) :
    packetFormat.IsPacket ((packHead hndCrc8 milliseconds sequence data).write ++ data) := by
  have hlength : (UInt16.ofNat data.length).toNat = data.length := by
    rw [UInt16.toNat_ofNat', Nat.mod_eq_of_lt h]
  rw [Format.IsPacket, packetFormat_size (by rw [DbTransHead.read_write]; rfl),
    DbTransHead.read_write, packHead, hlength, List.length_append, DbTransHead.length_write]

end Transmission

end YangIpc
