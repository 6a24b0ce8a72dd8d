import YangIpc.Library.Bytes

/-!
# Connecting to an access point

`yangipc_wifi_sta_connect` of `yangipc_network.c` copies a name and a key into a configuration
and starts the station.  Both checks of a length look at the key: names of any length are copied,
and keys of more than 32 characters are refused as names would be.

The configuration is declared outside of the repository; its arrays have space for 32 and 64
characters and a terminator.

## Main definitions

* `WifiStaConfig`: where the arrays are
* `yangipcWifiStaConnect`: the function
* `ChecksLengths`: what is promised of it

## Main results

* `checksLengths_iff`: for which names and keys it keeps the promise
-/

namespace YangIpc

namespace Core

open Bytes

/-- The arrays of `wifi_sta_config_t` that the function writes to. -/
inductive StaField
  | ssid
  | password
deriving DecidableEq, Repr

/-- The characters the arrays are meant for. -/
def StaField.limit : StaField → ℕ
  | ssid => 32
  | password => 64

/-- `wifi_sta_config_t`: the places of its arrays. -/
structure WifiStaConfig where
  offset : StaField → ℕ
  size : StaField → ℕ
  room : ∀ f, f.limit < size f
  apart : offset .ssid + size .ssid ≤ offset .password ∨
    offset .password + size .password ≤ offset .ssid

/-- `int len = os_strlen(s)`. -/
def intStrlen (s : CString) : ℤ := (BitVec.ofNat 32 s.bytes.length).toInt

/-- What a call has done: its result, `true` for `BK_OK`, the copies it has made, the
configuration, and whether the station was started with it. -/
structure StaConnect where
  status : Bool
  copies : List (StaField × List UInt8)
  config : Memory
  started : Bool

namespace StaConnect

/-- A call that has done nothing. -/
def begin : StaConnect := ⟨false, [], fun _ => 0, false⟩

/-- `os_strcpy` into an array of the configuration. -/
def strcpy (layout : WifiStaConfig) (r : StaConnect) (f : StaField) (s : CString) : StaConnect :=
  { r with
    copies := r.copies ++ [(f, s.bytes ++ [0])]
    config := store r.config (layout.offset f) (s.bytes ++ [0]) }

/-- `return BK_FAIL`. -/
def fail (r : StaConnect) : StaConnect := { r with status := false }

/-- `bk_wifi_sta_set_config`, `bk_wifi_sta_start` and `return BK_OK`; their errors are only
logged. -/
def start (r : StaConnect) : StaConnect := { r with status := true, started := true }

end StaConnect

/-- `yangipc_wifi_sta_connect`. -/
def yangipcWifiStaConnect (layout : WifiStaConfig) (ssid key : CString) : StaConnect :=
  let r := StaConnect.begin
  let len := intStrlen key
  -- "ssid name more than 32 Bytes"
  if 32 < len then r.fail
  else
    let r := r.strcpy layout .ssid ssid
    let len := intStrlen key
    if 64 < len then r.fail
    else (r.strcpy layout .password key).start

/-- An array of the configuration holds a terminated string. -/
def HoldsField (layout : WifiStaConfig) (config : Memory) (f : StaField) (s : CString) : Prop :=
  load config (layout.offset f) (s.bytes.length + 1) = s.bytes ++ [0]

/-- The station is started, with this name and this key, exactly if they are not too long.
Otherwise the call fails, and no copy leaves its array. -/
def ChecksLengths (layout : WifiStaConfig) (ssid key : CString) : Prop :=
  let r := yangipcWifiStaConnect layout ssid key
  if ssid.bytes.length ≤ StaField.ssid.limit ∧ key.bytes.length ≤ StaField.password.limit then
    r.status = true ∧ r.started = true ∧ HoldsField layout r.config .ssid ssid ∧
      HoldsField layout r.config .password key
  else
    r.status = false ∧ r.started = false ∧ ∀ c ∈ r.copies, c.2.length ≤ layout.size c.1

/-! ## The copies -/

variable {layout : WifiStaConfig} {ssid key s : CString} {config : Memory}

theorem intStrlen_of_lt (h : 2 * s.bytes.length < UInt32.size) :
    intStrlen s = s.bytes.length := by
  have hlt : s.bytes.length < UInt32.size := by omega
  unfold intStrlen
  rw [BitVec.toInt_eq_toNat_of_lt] <;> rw [BitVec.toNat_ofNat, Nat.mod_eq_of_lt hlt]
  exact h

/-- What the two copies leave in the configuration. -/
theorem holds_of_copies (layout : WifiStaConfig) (hssid : ssid.bytes.length ≤ StaField.ssid.limit)
    (hkey : key.bytes.length ≤ StaField.password.limit) (r : StaConnect) :
    HoldsField layout ((r.strcpy layout .ssid ssid).strcpy layout .password key).config .ssid ssid ∧
      HoldsField layout ((r.strcpy layout .ssid ssid).strcpy layout .password key).config .password
        key := by
  have hroom := layout.room
  have hapart := layout.apart
  constructor
  · -- the second copy stays in its own array
    have hlen : (key.bytes ++ [0]).length = key.bytes.length + 1 := List.length_append
    have hs := hroom .ssid
    have hp := hroom .password
    unfold HoldsField StaConnect.strcpy
    rw [load_store_outside (by omega), ← List.length_singleton (a := (0 : UInt8)),
      ← List.length_append, load_store_self]
  · unfold HoldsField StaConnect.strcpy
    rw [← List.length_singleton (a := (0 : UInt8)), ← List.length_append, load_store_self]

/-- A short string has the length that the code sees. -/
theorem intStrlen_of_limit (h : s.bytes.length ≤ StaField.password.limit) :
    intStrlen s = s.bytes.length := by
  apply intStrlen_of_lt
  simp only [StaField.limit] at h
  have hsize : 2 * 64 < UInt32.size := by decide
  omega

/-- **The promise is kept** exactly for names and keys of at most 32 characters, and for keys
that are refused and belong to a name or key that is too long. -/
theorem checksLengths_iff (layout : WifiStaConfig) (ssid key : CString) :
    ChecksLengths layout ssid key ↔
      (ssid.bytes.length ≤ 32 ∧ key.bytes.length ≤ 32) ∨
        (32 < intStrlen key ∧ (32 < ssid.bytes.length ∨ 64 < key.bytes.length)) := by
  have hint : key.bytes.length ≤ 64 → intStrlen key = key.bytes.length := intStrlen_of_limit
  unfold ChecksLengths
  by_cases hlen : 32 < intStrlen key
  · -- refused before anything is copied
    have hcall : yangipcWifiStaConnect layout ssid key = StaConnect.begin.fail := if_pos hlen
    rw [hcall]
    split
    · rename_i hshort
      simp only [StaField.limit] at hshort
      refine ⟨fun h => Bool.noConfusion (show false = true from h.1), fun h => ?_⟩
      have := hint hshort.2
      omega
    · rename_i hlong
      simp only [StaField.limit] at hlong
      refine ⟨fun _ => .inr ⟨hlen, by omega⟩, fun _ => ⟨rfl, rfl, ?_⟩⟩
      exact fun c hc => absurd hc List.not_mem_nil
  · -- both are copied and the station is started
    have hcall : yangipcWifiStaConnect layout ssid key =
        ((StaConnect.begin.strcpy layout .ssid ssid).strcpy layout .password key).start := by
      unfold yangipcWifiStaConnect
      rw [if_neg hlen, if_neg (by omega)]
    rw [hcall]
    split
    · rename_i hshort
      have hholds := holds_of_copies layout hshort.1 hshort.2 .begin
      simp only [StaField.limit] at hshort
      have := hint hshort.2
      exact ⟨fun _ => .inl (by omega), fun _ => ⟨rfl, rfl, hholds⟩⟩
    · rename_i hlong
      simp only [StaField.limit] at hlong
      refine ⟨fun h => Bool.noConfusion (show true = false from h.1), fun h => ?_⟩
      omega

/-- A configuration with the two arrays next to each other. -/
def packedConfig : WifiStaConfig where
  offset f := match f with
    | .ssid => 0
    | .password => 33
  size f := match f with
    | .ssid => 33
    | .password => 65
  room f := by cases f <;> decide
  apart := .inl (le_refl 33)

/-- A name of 40 characters is copied, and the station started. -/
theorem not_checksLengths_longName :
    ¬∀ (layout : WifiStaConfig) (ssid key : CString), ChecksLengths layout ssid key := by
  intro h
  have hchecks := h packedConfig ⟨List.replicate 40 65, by decide⟩ ⟨[65], by decide⟩
  have hstatus := (show _ ∧ _ from hchecks).1
  exact absurd hstatus (by decide)

end Core

end YangIpc
