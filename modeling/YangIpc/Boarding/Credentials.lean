import YangIpc.Boarding.Decoder
import YangIpc.Library.Run
import Mathlib.Logic.Function.Basic

/-!
# The credentials as strings

The record `p2p_cs2_key_t` is meant to hold four strings.  A command that sets one of them copies
its payload without a terminator, and the start appends to two of them without a look at the
space that is left.  An abstract record keeps the strings themselves; the bytes represent it as
long as every payload leaves its terminator, or brings one, and the start has space for what it
appends.

## Main definitions

* `Credentials`, `Credentials.after`: the strings and what the commands mean for them
* `HoldsString`, `Represents`: the bytes stand for the strings, each terminated inside its array
* `Kept`: a command goes through, stays in its arrays and keeps the representation
* `Roomy`: the payload leaves its terminator, the start has space

## Main results

* `set_kept_iff`, `start_kept_iff`: one command
* `credentials_kept_iff`: every run of commands
-/

namespace YangIpc

namespace Boarding

open Bytes Transition

/-! ## The strings -/

/-- The strings of the record, and whether the service was started. -/
structure Credentials where
  value : KeyField → List UInt8
  started : Bool

namespace Credentials

/-- A record that has just been allocated. -/
def cleared : Credentials := ⟨fun _ => [], false⟩

/-- A string is replaced. -/
def set (c : Credentials) (field : KeyField) (s : List UInt8) : Credentials :=
  { c with value := Function.update c.value field s }

/-- A colon and the key are appended to a string. -/
def append (c : Credentials) (field : KeyField) : Credentials :=
  c.set field (c.value field ++ 58 :: c.value .key)

end Credentials

/-- The commands on the credentials; a payload has a 16-bit length. -/
inductive CredentialOp
  | set (field : KeyField) (payload : List UInt8) (short : payload.length < UInt16.size)
  | start

namespace Credentials

/-- What a command means: a string is set once, and a record is started once. -/
def after (c : Option Credentials) : CredentialOp → Option Credentials
  | .set field payload _ =>
    let c := c.getD .cleared
    if c.value field = [] ∧ payload.length ≤ field.size then
      some (c.set field (CString.ofBytes payload).bytes)
    else some c
  | .start => c.map fun c =>
    if c.started then c else { (c.append .apilicense).append .initstring with started := true }

end Credentials

/-! ## The bytes -/

/-- The opcode of the command that sets a string. -/
def KeyField.opcode : KeyField → BoardingOp
  | did => .setCs2Did
  | apilicense => .setCs2Apilicense
  | initstring => .setCs2InitString
  | key => .setCs2Key

section Execute

variable (ssidMaxLen passwordMaxLen : ℕ) (keyAddress : UInt32)

/-- A command, as the handler is given it. -/
def execute (key : Option P2pCs2Key) :
    CredentialOp → Except Fault (Option P2pCs2Key × List BoardingAction)
  | .set field payload _ =>
    yangipcBoardingOperationHandle ssidMaxLen passwordMaxLen keyAddress key field.opcode
      (UInt16.ofNat payload.length) (payload.map some)
  | .start =>
    yangipcBoardingOperationHandle ssidMaxLen passwordMaxLen keyAddress key .srrviceCs2Start 0 []

end Execute

/-- A terminated string is at an address. -/
def HoldsString (key : P2pCs2Key) (a : ℕ) (s : List UInt8) : Prop :=
  load key a s.length = s ∧ key (a + s.length) = 0 ∧ 0 ∉ s

/-- Every string is held, terminated inside its array. -/
def Represents : Option P2pCs2Key → Option Credentials → Prop
  | none, none => True
  | some key, some c =>
    (∀ f, HoldsString key f.offset (c.value f) ∧ (c.value f).length < f.size) ∧
      (key cs2StartedOffset = 0 ↔ c.started = false)
  | _, _ => False

/-- The offsets a command may write to. -/
def Targets : CredentialOp → ℕ → Prop
  | .set field _ _, i => field.offset ≤ i ∧ i < field.offset + field.size
  | .start, i =>
    (KeyField.apilicense.offset ≤ i ∧
      i < KeyField.initstring.offset + KeyField.initstring.size) ∨ i = cs2StartedOffset

/-- The record, and the strings it is meant to hold. -/
structure CredentialState where
  record : Option P2pCs2Key
  credentials : Option Credentials

/-- A command that returned a record `key` went through, wrote only into its arrays and left the
strings it should: more than that each array holds some string with a terminator. -/
def Kept (result : Except Fault (Option P2pCs2Key × List BoardingAction)) (w : CredentialState)
    (op : CredentialOp) : Prop :=
  ∃ r, result = .ok r ∧ Represents r.1 (Credentials.after w.credentials op) ∧
    ∀ key, r.1 = some key → ∀ i, ¬Targets op i → key i = w.record.getD .cleared i

/-- The payload of an accepted command leaves the terminator behind it, or brings one; the start
has space for the colon, the key and a terminator. -/
def Roomy (w : CredentialState) : CredentialOp → Prop
  | .set field payload _ =>
    (w.credentials.getD .cleared).value field = [] → payload.length ≤ field.size →
      0 ∈ payload ∨ (payload.length < field.size ∧
        w.record.getD .cleared (field.offset + payload.length) = 0)
  | .start => ∀ c, w.credentials = some c → c.started = false →
    ∀ f, f = .apilicense ∨ f = .initstring →
      (c.value f).length + 1 + (c.value .key).length < f.size

/-! ## Strings in memory -/

variable {key key' : P2pCs2Key} {a b : ℕ} {s t : List UInt8} {field : KeyField}

namespace HoldsString

theorem ne_zero (h : HoldsString key a s) {i : ℕ} (hi : i < s.length) : key (a + i) ≠ 0 := by
  intro hzero
  refine h.2.2 ?_
  rw [← h.1, ← hzero]
  exact List.mem_map.mpr ⟨i, List.mem_range.mpr hi, rfl⟩

/-- The bytes of the string and its terminator decide. -/
theorem frame (h : HoldsString key a s) (hsame : ∀ i, a ≤ i → i ≤ a + s.length → key' i = key i) :
    HoldsString key' a s := by
  refine ⟨?_, ?_, h.2.2⟩
  · refine Eq.trans (List.map_congr_left fun i hi => ?_) h.1
    have := List.mem_range.mp hi
    exact hsame (a + i) (by omega) (by omega)
  · rw [hsame _ (by omega) (le_refl _)]
    exact h.2.1

theorem strlen (h : HoldsString key a s) (hend : a + s.length < p2pCs2KeySize) :
    P2pCs2Key.strlen key a = .ok s.length := by
  have hfind : (List.range (p2pCs2KeySize - a)).find? (fun i => key (a + i) = 0) =
      some s.length := by
    rw [List.find?_range_eq_some]
    refine ⟨by simpa using h.2.1, List.mem_range.mpr (by omega), fun i hi => ?_⟩
    simpa using h.ne_zero hi
  unfold P2pCs2Key.strlen
  rw [hfind]

theorem string (h : HoldsString key a s) (hend : a + s.length < p2pCs2KeySize) :
    P2pCs2Key.string key a = .ok s := by
  unfold P2pCs2Key.string
  rw [h.strlen hend]
  exact congrArg Except.ok h.1

/-- What is appended with a terminator continues the string. -/
theorem append (h : HoldsString key a s) (ht : 0 ∉ t) :
    HoldsString (store key (a + s.length) (t ++ [0])) a (s ++ t) := by
  refine ⟨?_, ?_, ?_⟩
  · have htail : load (store key (a + s.length) (t ++ [0])) (a + s.length) t.length = t := by
      rw [← take_load (n := (t ++ [0]).length) (by simp), load_store_self, List.take_left]
    rw [List.length_append, load_add, load_store_below (le_refl _), h.1, htail]
  · have hin : a + s.length ≤ a + (s ++ t).length := by simp
    have hoff : a + (s ++ t).length - (a + s.length) = t.length := by
      rw [List.length_append]
      omega
    simp only [store, if_pos hin, hoff]
    simp
  · rw [List.mem_append]
    exact fun hmem => hmem.elim h.2.2 ht

theorem strcat (h : HoldsString key a s) (hend : a + s.length + t.length < p2pCs2KeySize) :
    P2pCs2Key.strcat key a t = .ok (store key (a + s.length) (t ++ [0])) := by
  unfold P2pCs2Key.strcat
  rw [h.strlen (by omega)]
  exact if_pos hend

end HoldsString

/-- The arrays are inside the record and apart. -/
theorem KeyField.offset_add_size_le (field : KeyField) :
    field.offset + field.size ≤ cs2StartedOffset := by
  cases field <;> decide

theorem KeyField.apart {f g : KeyField} (h : f ≠ g) :
    f.offset + f.size ≤ g.offset ∨ g.offset + g.size ≤ f.offset := by
  cases f <;> cases g <;> first | exact absurd rfl h | decide

/-- The colon and the key are appended to a string that has space for them. -/
theorem appendKey_of_room (field : KeyField) {k : List UInt8} (hfield : field ≠ .key)
    (hs : HoldsString key field.offset s) (hk : HoldsString key KeyField.key.offset k)
    (hklen : k.length < KeyField.key.size) (hroom : s.length + 1 + k.length < field.size) :
    ∃ key', key.appendKey field = .ok key' ∧ HoldsString key' field.offset (s ++ 58 :: k) ∧
      ∀ i, i < field.offset ∨ field.offset + field.size ≤ i → key' i = key i := by
  have hend := field.offset_add_size_le
  have hendk := KeyField.key.offset_add_size_le
  have hsize : cs2StartedOffset < p2pCs2KeySize := by decide
  -- the colon, which leaves the key alone
  obtain ⟨key₁, hkey₁⟩ : ∃ key₁, key₁ = store key (field.offset + s.length) ([58] ++ [0]) :=
    ⟨_, rfl⟩
  have hframe₁ : ∀ i, i < field.offset ∨ field.offset + field.size ≤ i → key₁ i = key i := by
    intro i hi
    rw [hkey₁]
    apply store_outside
    simp only [List.length_append, List.length_singleton]
    omega
  have hcolon : HoldsString key₁ field.offset (s ++ [58]) := hkey₁ ▸ hs.append (by decide)
  have hk₁ : HoldsString key₁ KeyField.key.offset k := by
    refine hk.frame fun i hlo hhi => hframe₁ i ?_
    have := KeyField.apart hfield
    omega
  have hlen : (s ++ [58]).length = s.length + 1 := by simp
  have hcat₁ : key.strcat field.offset [58] = .ok key₁ := by
    rw [hkey₁]
    exact hs.strcat (by simp only [List.length_singleton]; omega)
  have hcat₂ : P2pCs2Key.strcat key₁ field.offset k =
      .ok (store key₁ (field.offset + (s ++ [58]).length) (k ++ [0])) :=
    hcolon.strcat (by omega)
  refine ⟨store key₁ (field.offset + (s ++ [58]).length) (k ++ [0]), ?_, ?_, ?_⟩
  · unfold P2pCs2Key.appendKey
    rw [hcat₁]
    show (do
      let s ← P2pCs2Key.string key₁ KeyField.key.offset
      P2pCs2Key.strcat key₁ field.offset s) = _
    rw [hk₁.string (by omega)]
    exact hcat₂
  · have happend := hcolon.append hk.2.2
    rwa [List.append_assoc] at happend
  · intro i hi
    rw [store_outside, hframe₁ i hi]
    rw [hlen, List.length_append, List.length_singleton]
    omega

/-! ## Setting a string -/

variable {c : Credentials} {w : CredentialState} {ssidMaxLen passwordMaxLen : ℕ}
  {keyAddress : UInt32}

/-- The bytes behind a payload without terminator, or the one it brings. -/
theorem holdsString_store_iff {payload : List UInt8} {size : ℕ} (hsize : payload.length ≤ size) :
    (HoldsString (store key a payload) a (CString.ofBytes payload).bytes ∧
        (CString.ofBytes payload).bytes.length < size) ↔
      0 ∈ payload ∨ (payload.length < size ∧ key (a + payload.length) = 0) := by
  by_cases hnul : 0 ∈ payload
  · -- the string ends with the first terminator of the payload
    obtain ⟨pre, post, rfl, hpre⟩ := List.eq_append_cons_of_mem hnul
    have hbytes : (CString.ofBytes (pre ++ 0 :: post)).bytes = pre := by
      show List.takeWhile _ _ = _
      rw [List.takeWhile_append_of_pos fun b hb => by simpa using ne_of_mem_of_not_mem hb hpre]
      simp
    have hlen : (pre ++ 0 :: post).length = pre.length + (0 :: post).length := List.length_append
    rw [hbytes]
    refine ⟨fun _ => .inl hnul, fun _ => ⟨⟨?_, ?_, hpre⟩, ?_⟩⟩
    · rw [← take_load (n := (pre ++ 0 :: post).length) (by omega), load_store_self, List.take_left]
    · simp [store]
    · rw [hlen, List.length_cons] at hsize
      omega
  · rw [CString.ofBytes_eq hnul]
    simp only [hnul, false_or]
    have hbehind : store key a payload (a + payload.length) = key (a + payload.length) :=
      store_outside (.inr (le_refl _))
    constructor
    · rintro ⟨h, hlt⟩
      exact ⟨hlt, hbehind ▸ h.2.1⟩
    · rintro ⟨hlt, hzero⟩
      exact ⟨⟨load_store_self, hbehind.trans hzero, hnul⟩, hlt⟩

theorem Represents.getD {key : Option P2pCs2Key} {c : Option Credentials} (h : Represents key c) :
    Represents (some (key.getD .cleared)) (some (c.getD .cleared)) := by
  cases key with
  | none =>
    cases c with
    | none =>
      have hflag : P2pCs2Key.cleared cs2StartedOffset = 0 ↔ Credentials.cleared.started = false :=
        ⟨fun _ => rfl, fun _ => rfl⟩
      refine ⟨fun f => ⟨⟨rfl, rfl, List.not_mem_nil⟩, ?_⟩, hflag⟩
      cases f <;> decide
    | some c => exact h.elim
  | some key =>
    cases c with
    | none => exact h.elim
    | some c => exact h

/-- The branches of the handler for the commands that set a string. -/
theorem execute_set {payload : List UInt8} {short : payload.length < UInt16.size}
    (key : Option P2pCs2Key) :
    execute ssidMaxLen passwordMaxLen keyAddress key (.set field payload short) =
      setKeyField field key field.opcode (UInt16.ofNat payload.length) (payload.map some) := by
  cases field <;> rfl

theorem execute_start (key : Option P2pCs2Key) :
    execute ssidMaxLen passwordMaxLen keyAddress key .start = srrviceCs2Start keyAddress key := rfl

/-- What such a command does to a record that holds its string. -/
theorem setKeyField_of_holds {payload : List UInt8} (short : payload.length < UInt16.size)
    {key : Option P2pCs2Key} {opcode : BoardingOp}
    (h : HoldsString (key.getD .cleared) field.offset s) (hlt : s.length < field.size) :
    setKeyField field key opcode (UInt16.ofNat payload.length) (payload.map some) =
      if s = [] ∧ payload.length ≤ field.size then
        .ok (some (store (key.getD .cleared) field.offset payload),
          [yangipcBoardingEventMessage opcode])
      else .ok (some (key.getD .cleared), []) := by
  have hend := field.offset_add_size_le
  have hsize : cs2StartedOffset < p2pCs2KeySize := by decide
  have hlength : (UInt16.ofNat payload.length).toNat = payload.length :=
    UInt16.toNat_ofNat_of_lt short
  unfold setKeyField
  dsimp only
  rw [h.strlen (by omega), hlength]
  show (if s.length ≠ 0 then _ else _) = _
  cases s with
  | nil =>
    simp only [List.length_nil, ne_eq, not_true_eq_false, if_false, true_and, gt_iff_lt,
      ← Nat.not_le]
    by_cases hfits : payload.length ≤ field.size
    · simp only [hfits, not_true_eq_false, if_false, if_true]
      have hall : payload.drop 0 = payload ++ [] := by simp
      rw [Region.bytes_written hall]
      rfl
    · simp only [hfits, not_false_eq_true, if_true, if_false]
      rfl
  | cons b rest => rfl

/-- **A command that sets a string** keeps the representation if and only if the payload leaves its
terminator, or brings one. -/
theorem set_kept_iff {payload : List UInt8} {short : payload.length < UInt16.size}
    (h : Represents w.record w.credentials) :
    Kept (execute ssidMaxLen passwordMaxLen keyAddress w.record (.set field payload short)) w
        (.set field payload short) ↔
      Roomy w (.set field payload short) := by
  obtain ⟨hfields, hstarted⟩ := h.getD
  obtain ⟨hs, hlt⟩ := hfields field
  rw [execute_set, setKeyField_of_holds short hs hlt]
  unfold Kept Credentials.after Roomy
  by_cases haccept : (w.credentials.getD .cleared).value field = [] ∧
      payload.length ≤ field.size
  · simp only [haccept, and_self, if_true]
    rw [true_imp_iff, true_imp_iff, ← holdsString_store_iff haccept.2]
    constructor
    · rintro ⟨_, ⟨⟩, ⟨hrep, -⟩, -⟩
      have hfield := hrep field
      simpa [Credentials.set] using hfield
    · rintro ⟨hholds, hlen⟩
      refine ⟨_, rfl, ⟨fun f => ?_, ?_⟩, ?_⟩
      · by_cases hf : f = field
        · subst hf
          simpa [Credentials.set] using ⟨hholds, hlen⟩
        · have hvalue : ((w.credentials.getD .cleared).set field
              (CString.ofBytes payload).bytes).value f = (w.credentials.getD .cleared).value f :=
            Function.update_of_ne hf _ _
          rw [hvalue]
          refine ⟨(hfields f).1.frame fun i hlo hhi => store_outside ?_, (hfields f).2⟩
          have := KeyField.apart hf
          have := (hfields f).2
          omega
      · have := field.offset_add_size_le
        rw [store_outside (.inr (by omega))]
        exact hstarted
      · rintro _ ⟨⟩ i hi
        refine store_outside ?_
        simp only [Targets, not_and_or, Nat.not_le, Nat.not_lt] at hi
        omega
  · simp only [haccept, if_false]
    have hrefused : ¬((w.credentials.getD .cleared).value field = [] ∧
      payload.length ≤ field.size) := haccept
    refine ⟨fun _ hempty hfits => absurd ⟨hempty, hfits⟩ hrefused, fun _ => ?_⟩
    exact ⟨_, rfl, ⟨hfields, hstarted⟩, by rintro _ ⟨⟩ i -; rfl⟩

/-! ## Starting the service -/

@[simp] theorem Credentials.value_append : (c.append field).value field =
    c.value field ++ 58 :: c.value .key := Function.update_self _ _ _

theorem Credentials.value_append_of_ne {f : KeyField} (h : f ≠ field) :
    (c.append field).value f = c.value f := Function.update_of_ne h _ _

/-- The strings after a start. -/
theorem Credentials.value_started (f : KeyField) :
    ((c.append .apilicense).append .initstring).value f =
      if f = .apilicense ∨ f = .initstring then c.value f ++ 58 :: c.value .key else c.value f := by
  cases f with
  | did => rfl
  | key => rfl
  | apilicense =>
    rw [value_append_of_ne (by decide), value_append]
    rfl
  | initstring =>
    rw [value_append, value_append_of_ne (by decide), value_append_of_ne (by decide)]
    rfl

/-- All strings of a record are held, each terminated inside its array. -/
def HoldsAll (key : P2pCs2Key) (c : Credentials) : Prop :=
  ∀ f, HoldsString key f.offset (c.value f) ∧ (c.value f).length < f.size

/-- The bytes of the arrays decide. -/
theorem HoldsAll.frame (h : HoldsAll key c) (hsame : ∀ i < cs2StartedOffset, key' i = key i) :
    HoldsAll key' c := by
  intro f
  refine ⟨(h f).1.frame fun i hlo hhi => hsame i ?_, (h f).2⟩
  have := f.offset_add_size_le
  have := (h f).2
  omega

/-- The key is appended to one string, and the others are left alone. -/
theorem HoldsAll.appendKey (h : HoldsAll key c) (hfield : field ≠ .key)
    (hroom : (c.value field).length + 1 + (c.value .key).length < field.size) :
    ∃ key', key.appendKey field = .ok key' ∧ HoldsAll key' (c.append field) ∧
      ∀ i, i < field.offset ∨ field.offset + field.size ≤ i → key' i = key i := by
  obtain ⟨key', hcall, hholds, hframe⟩ :=
    appendKey_of_room field hfield (h field).1 (h .key).1 (h .key).2 hroom
  refine ⟨key', hcall, fun f => ?_, hframe⟩
  by_cases hf : f = field
  · subst hf
    rw [Credentials.value_append]
    refine ⟨hholds, ?_⟩
    rw [List.length_append, List.length_cons]
    omega
  · rw [Credentials.value_append_of_ne hf]
    refine ⟨(h f).1.frame fun i hlo hhi => hframe i ?_, (h f).2⟩
    have := KeyField.apart hf
    have := (h f).2
    omega

/-- The bytes after a start that has space. -/
theorem start_of_room (keyAddress : UInt32) {key : P2pCs2Key}
    (hrep : Represents (some key) (some c))
    (hstarted : c.started = false)
    (hroom : ∀ f, f = .apilicense ∨ f = .initstring →
      (c.value f).length + 1 + (c.value .key).length < f.size) :
    ∃ key' actions, srrviceCs2Start keyAddress (some key) = .ok (some key', actions) ∧
      Represents (some key') (Credentials.after (some c) .start) ∧
      ∀ i, ¬Targets .start i → key' i = key i := by
  obtain ⟨hfields, hflag⟩ := hrep
  obtain ⟨key₁, hcall₁, hholds₁, hframe₁⟩ :=
    @HoldsAll.appendKey _ .apilicense _ hfields (by decide) (hroom _ (.inl rfl))
  -- the first string is not the other one, nor the key
  have hroom₂ : ((c.append .apilicense).value .initstring).length + 1 +
      ((c.append .apilicense).value .key).length < KeyField.initstring.size := by
    rw [Credentials.value_append_of_ne (by decide), Credentials.value_append_of_ne (by decide)]
    exact hroom _ (.inr rfl)
  obtain ⟨key₂, hcall₂, hholds₂, hframe₂⟩ := hholds₁.appendKey (by decide) hroom₂
  refine ⟨store key₂ cs2StartedOffset [1], [.sendMsg ⟨.p2pCs2ServiceStartRequest, keyAddress⟩],
    ?_, ?_, fun i hi => ?_⟩
  · have hzero : key cs2StartedOffset = 0 := hflag.mpr hstarted
    simp only [srrviceCs2Start, hzero, ne_eq, not_true_eq_false, if_false]
    rw [hcall₁]
    show (do
      let key ← P2pCs2Key.appendKey key₁ .initstring
      _) = _
    rw [hcall₂]
    rfl
  · simp only [Credentials.after, Option.map_some, hstarted, Bool.false_eq_true, if_false]
    have hstored : HoldsAll (store key₂ cs2StartedOffset [1])
        ((c.append .apilicense).append .initstring) :=
      hholds₂.frame fun i hi => store_outside (.inl hi)
    exact ⟨hstored, by simp [store]⟩
  · simp only [Targets, KeyField.offset, KeyField.size, cs2StartedOffset, not_or, not_and_or,
      Nat.not_le, Nat.not_lt] at hi
    rw [store_outside, hframe₂, hframe₁] <;>
      simp only [KeyField.offset, KeyField.size, cs2StartedOffset, List.length_singleton] <;> omega

/-- **The start** keeps the representation if and only if both strings have space for the colon
and the key. -/
theorem start_kept_iff (h : Represents w.record w.credentials) :
    Kept (execute ssidMaxLen passwordMaxLen keyAddress w.record .start) w .start ↔
      Roomy w .start := by
  rw [execute_start]
  obtain ⟨record, credentials⟩ := w
  cases record with
  | none =>
    cases credentials with
    | none => exact ⟨fun _ _ hc => absurd hc nofun, fun _ => ⟨_, rfl, trivial, nofun⟩⟩
    | some c => exact h.elim
  | some key =>
    cases credentials with
    | none => exact h.elim
    | some c =>
      by_cases hstarted : c.started = true
      · -- already started: nothing happens
        have hflag : key cs2StartedOffset ≠ 0 := by
          rw [ne_eq, h.2, hstarted]
          decide
        refine ⟨fun _ c' hc hc' => ?_, fun _ => ⟨(some key, []), ?_, ?_, ?_⟩⟩
        · rw [← Option.some.inj hc, hstarted] at hc'
          exact absurd hc' nofun
        · simp [srrviceCs2Start, hflag]
        · simpa [Credentials.after, hstarted] using h
        · rintro _ ⟨⟩ i -
          rfl
      · have hstarted : c.started = false := by simpa using hstarted
        constructor
        · rintro ⟨⟨_ | key', actions⟩, -, hrep, -⟩ c' hc - f hf
          · exact hrep.elim
          · obtain rfl := Option.some.inj hc
            have hlen := (hrep.1 f).2
            simp only [hstarted, Bool.false_eq_true, if_false] at hlen
            change (((c.append .apilicense).append .initstring).value f).length < f.size at hlen
            rw [Credentials.value_started, if_pos hf, List.length_append, List.length_cons] at hlen
            omega
        · intro hroom
          obtain ⟨key', actions, hcall, hrep, hframe⟩ :=
            start_of_room keyAddress h hstarted (hroom c rfl hstarted)
          refine ⟨_, hcall, hrep, ?_⟩
          rintro _ ⟨⟩ i hi
          exact hframe i hi

/-! ## Runs -/

section Runs

variable (ssidMaxLen passwordMaxLen : ℕ) (keyAddress : UInt32)

/-- The record after a command; a command that does not go through is the end of it. -/
def CredentialState.next (w : CredentialState) (op : CredentialOp) : CredentialState :=
  match execute ssidMaxLen passwordMaxLen keyAddress w.record op with
  | .ok r => ⟨r.1, Credentials.after w.credentials op⟩
  | .error _ => w

/-- A command is kept by the record. -/
def KeptBy (w : CredentialState) (op : CredentialOp) : Prop :=
  Kept (execute ssidMaxLen passwordMaxLen keyAddress w.record op) w op

/-- Nothing has been set. -/
def CredentialState.empty : CredentialState := ⟨none, none⟩

theorem represents_next (op : CredentialOp)
    (h : KeptBy ssidMaxLen passwordMaxLen keyAddress w op) :
    Represents (w.next ssidMaxLen passwordMaxLen keyAddress op).record
      (w.next ssidMaxLen passwordMaxLen keyAddress op).credentials := by
  obtain ⟨r, hcall, hrep, -⟩ := h
  unfold CredentialState.next
  rw [hcall]
  exact hrep

/-- **Every run of commands.** The commands go through, stay in their arrays and leave the strings
they should, each terminated inside its array, if and only if every accepted payload leaves its
terminator or brings one, and every accepted start has space for what it appends. -/
theorem credentials_kept_iff (ops : List CredentialOp) :
    Along (CredentialState.next ssidMaxLen passwordMaxLen keyAddress)
        (KeptBy ssidMaxLen passwordMaxLen keyAddress) .empty ops ↔
      Along (CredentialState.next ssidMaxLen passwordMaxLen keyAddress) Roomy .empty ops := by
  have hempty : Represents CredentialState.empty.record CredentialState.empty.credentials := trivial
  refine along_congr (B := fun w : CredentialState => Represents w.record w.credentials) ?_
    (fun w _ op _ hp => represents_next _ _ _ op hp) CredentialState.empty hempty
  intro w hw op _
  cases op with
  | set field payload short => exact set_kept_iff hw
  | start => exact start_kept_iff hw

/-- A payload as long as its array leaves no terminator. -/
theorem not_kept_full_did :
    ¬∀ (ssidMaxLen passwordMaxLen : ℕ) (keyAddress : UInt32) (ops : List CredentialOp),
      Along (CredentialState.next ssidMaxLen passwordMaxLen keyAddress)
        (KeptBy ssidMaxLen passwordMaxLen keyAddress) .empty ops := by
  intro h
  have hkept := (h 33 65 0 [.set .did (List.replicate 64 65) (by decide)]).1
  have hroomy := (set_kept_iff (w := .empty) trivial).mp hkept rfl (by decide)
  exact absurd hroomy (by decide)

end Runs

end Boarding

end YangIpc
