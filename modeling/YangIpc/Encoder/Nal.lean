import YangIpc.Encoder.Scan

/-!
# The slice of a P frame

A frame of the encoder is a sequence of NAL units, each behind a start code of three or four
bytes.  `yang_send_p` is meant to send the frame from its first coded slice on.  It looks at the
first unit, and otherwise sends the second one without a look at it, so that it is right when the
first slice is one of these two.

## Main definitions

* `Nal`, `encodeNals`, `sliceOffset`: frames, and where the first slice begins

## Main results

* `yangSendP_inBounds_iff`: the one frame that is read behind its end
* `sendsFirstSlice_iff`: when the right slice is sent
-/

namespace YangIpc

namespace Encoder

/-- A NAL unit and the length of the start code before it.  Emulation prevention leaves no start
code in it. -/
structure Nal where
  long : Bool
  bytes : List UInt8
  nonempty : bytes ≠ []
  clean : ∀ k, ¬CodeAt bytes k

namespace Nal

/-- The start code. -/
def startCode (nal : Nal) : List UInt8 := if nal.long then [0, 0, 0, 1] else [0, 0, 1]

/-- The unit with its start code. -/
def encode (nal : Nal) : List UInt8 := nal.startCode ++ nal.bytes

/-- The byte that tells the type. -/
def header (nal : Nal) : UInt8 := nal.bytes.head nal.nonempty

/-- A coded slice, the type 1. -/
def IsSlice (nal : Nal) : Prop := nal.header &&& 0x1F = 1

instance (nal : Nal) : Decidable nal.IsSlice := inferInstanceAs (Decidable (_ = _))

end Nal

/-- A frame. -/
def encodeNals (nals : List Nal) : List UInt8 := nals.flatMap Nal.encode

/-- The offset of the header of the first coded slice. -/
def sliceOffset : List Nal → Option ℕ
  | [] => none
  | nal :: rest =>
    if nal.IsSlice then some nal.startCode.length
    else (sliceOffset rest).map (nal.encode.length + ·)

/-! ## Start codes of a frame -/

variable {nal : Nal} {nals rest : List Nal} {l pre tail frame : List UInt8} {j k : ℕ}

theorem codeAt_append : CodeAt (pre ++ l) (pre.length + k) ↔ CodeAt l k := by
  have hget : ∀ n, (pre ++ l)[pre.length + n]? = l[n]? := by
    intro n
    rw [List.getElem?_append_right (by omega), Nat.add_sub_cancel_left]
  unfold CodeAt
  rw [Nat.add_assoc, Nat.add_assoc, hget, hget, hget]

/-- Bytes in front of others. -/
theorem CodeAt.of_append (h : CodeAt (l ++ tail) k) (hk : k + 3 ≤ l.length) : CodeAt l k := by
  unfold CodeAt at h ⊢
  rwa [List.getElem?_append_left (by omega), List.getElem?_append_left (by omega),
    List.getElem?_append_left (by omega)] at h

theorem Nal.length_startCode (nal : Nal) :
    nal.startCode.length = 3 ∨ nal.startCode.length = 4 := by
  unfold startCode
  cases nal.long
  · exact .inl rfl
  · exact .inr rfl

/-- The last three bytes of a start code are one. -/
theorem codeAt_startCode : CodeAt (nal.startCode ++ tail) (nal.startCode.length - 3) := by
  unfold Nal.startCode
  cases nal.long
  · exact ⟨rfl, rfl, rfl⟩
  · exact ⟨rfl, rfl, rfl⟩

/-- Nothing in front of them is. -/
theorem startCode_getElem? (h : k + 1 < nal.startCode.length) :
    (nal.startCode ++ tail)[k]? = some 0 := by
  unfold Nal.startCode at h ⊢
  cases hlong : nal.long
  · rw [hlong] at h
    match k, h with
    | 0, _ => rfl
    | 1, _ => rfl
  · rw [hlong] at h
    match k, h with
    | 0, _ => rfl
    | 1, _ => rfl
    | 2, _ => rfl

/-- In a clean sequence and the start code behind it, the first start code is that one. -/
theorem not_codeAt_of_clean (hclean : ∀ k, ¬CodeAt l k)
    (hj : j + 3 < l.length + nal.startCode.length) : ¬CodeAt (l ++ (nal.startCode ++ tail)) j := by
  intro h
  by_cases hin : j + 3 ≤ l.length
  · exact hclean j (h.of_append hin)
  · -- the last of the three bytes would be one of the zeros of the start code
    have hzero : (nal.startCode ++ tail)[j + 2 - l.length]? = some 0 :=
      startCode_getElem? (by omega)
    have hlast := h.2.2
    rw [List.getElem?_append_right (by omega), hzero] at hlast
    exact absurd hlast (by decide)

theorem encodeNals_cons : encodeNals (nal :: rest) =
    nal.startCode ++ (nal.bytes ++ encodeNals rest) := by
  show nal.encode ++ encodeNals rest = _
  rw [Nal.encode, List.append_assoc]

theorem Nal.length_bytes_pos (nal : Nal) : 0 < nal.bytes.length :=
  List.length_pos_iff.mpr nal.nonempty

theorem Nal.length_encode (nal : Nal) :
    nal.encode.length = nal.startCode.length + nal.bytes.length := List.length_append

/-! ## The two searches -/

/-- The first search finds the start code of the frame. -/
theorem findNextStartCode_first (hframe : frame = encodeNals (nal :: rest)) :
    findNextStartCode frame 0 frame.length = some (some (0, nal.startCode.length)) := by
  have hcode : CodeAt frame (nal.startCode.length - 3) := by
    rw [hframe, encodeNals_cons]
    exact codeAt_startCode
  rcases nal.length_startCode with hlen | hlen
  · rw [hlen] at hcode ⊢
    exact findNextStartCode_three hcode
  · have hzero : frame[0]? = some 0 := by
      rw [hframe, encodeNals_cons]
      exact startCode_getElem? (by omega)
    rw [hlen] at hcode ⊢
    exact findNextStartCode_four hzero hcode

theorem header_eq (hframe : frame = encodeNals (nal :: rest)) :
    frame[nal.startCode.length]? = some nal.header := by
  rw [hframe, encodeNals_cons, List.getElem?_append_right (Nat.le_refl _), Nat.sub_self,
    List.getElem?_append_left nal.length_bytes_pos, ← List.head?_eq_getElem?]
  exact List.head?_eq_some_head nal.nonempty

/-- The second search finds the next unit, if there is one. -/
theorem findNextStartCode_second {next : Nal}
    (hframe : frame = encodeNals (nal :: next :: rest)) :
    ∃ p l, findNextStartCode frame nal.startCode.length frame.length = some (some (p, l)) ∧
      p + l = nal.encode.length + next.startCode.length := by
  have hlen : 3 ≤ next.startCode.length := by
    rcases next.length_startCode with h | h <;> omega
  have hsplit : frame = nal.startCode ++
      (nal.bytes ++ (next.startCode ++ (next.bytes ++ encodeNals rest))) := by
    rw [hframe, encodeNals_cons, encodeNals_cons]
  have hfirst : FirstCode frame nal.startCode.length
      (nal.startCode.length + (nal.bytes.length + (next.startCode.length - 3))) := by
    refine ⟨by omega, ?_, fun j hj hjk => ?_⟩
    · rw [hsplit, codeAt_append, codeAt_append]
      exact codeAt_startCode
    · obtain ⟨n, rfl⟩ := Nat.exists_eq_add_of_le hj
      rw [hsplit, codeAt_append]
      exact not_codeAt_of_clean nal.clean (by omega)
  rcases findNextStartCode_found frame nal.startCode.length with
    ⟨p, l, k, hresult, -, hl, hk, -⟩ | ⟨-, hnone⟩
  · refine ⟨p, l, hresult, ?_⟩
    rw [hl, hk.unique hfirst, Nal.length_encode]
    omega
  · exact absurd hfirst.2.1 (hnone _ hfirst.1)

theorem findNextStartCode_last (hframe : frame = encodeNals [nal]) :
    findNextStartCode frame nal.startCode.length frame.length = some none := by
  have hsplit : frame = nal.startCode ++ (nal.bytes ++ []) := by
    rw [hframe, encodeNals_cons]
    rfl
  have hnone : ∀ k, nal.startCode.length ≤ k → ¬CodeAt frame k := by
    intro k hk
    obtain ⟨n, rfl⟩ := Nat.exists_eq_add_of_le hk
    rw [hsplit, codeAt_append, List.append_nil]
    exact nal.clean n
  rcases findNextStartCode_found frame nal.startCode.length with
    ⟨p, l, k, -, -, -, hk, -⟩ | ⟨hresult, -⟩
  · exact absurd hk.2.1 (hnone k hk.1)
  · exact hresult

/-! ## What is sent -/

/-- The first unit is sent if it is a slice, and otherwise the second one. -/
def sentOffset : List Nal → Option ℕ
  | [] => none
  | nal :: rest =>
    if nal.IsSlice then some nal.startCode.length
    else rest.head?.map fun next => nal.encode.length + next.startCode.length

theorem yangSendP_eq (hframe : frame = encodeNals (nal :: rest))
    (hshort : 2 * frame.length < UInt32.size) :
    yangSendP frame =
      some ((sentOffset (nal :: rest)).toList.map fun h => (h, frame.length - h)) := by
  unfold yangSendP
  dsimp only
  rw [frameLength_eq hshort, findNextStartCode_first hframe]
  simp only [sentOffset, Option.bind_eq_bind, Option.bind_some, header_eq hframe, Nal.IsSlice]
  by_cases hslice : nal.header &&& 0x1F = 1
  · simp only [hslice, if_true]
    rfl
  · simp only [hslice, if_false, Nat.zero_add]
    cases rest with
    | nil =>
      rw [findNextStartCode_last hframe]
      rfl
    | cons next rest =>
      obtain ⟨p, l, hresult, hpl⟩ := findNextStartCode_second hframe
      have hp : ¬p > frame.length := by
        rw [hframe, encodeNals_cons, encodeNals_cons]
        simp only [List.length_append]
        rw [Nal.length_encode] at hpl
        omega
      rw [hresult]
      simp only [Option.bind_some, hp, if_false, hpl, Nat.sub_sub]
      rfl

/-- The first slice is among the first two units exactly if the right one is sent. -/
theorem sentOffset_eq_iff {h : ℕ} (hslice : sliceOffset nals = some h) :
    sentOffset nals = some h ↔ ∃ nal ∈ nals.take 2, nal.IsSlice := by
  cases nals with
  | nil => exact absurd hslice nofun
  | cons nal rest =>
    simp only [sliceOffset] at hslice
    simp only [sentOffset]
    by_cases hfirst : nal.IsSlice
    · rw [if_pos hfirst] at hslice
      rw [if_pos hfirst]
      exact ⟨fun _ => ⟨nal, List.mem_cons_self, hfirst⟩, fun _ => hslice⟩
    · rw [if_neg hfirst] at hslice
      rw [if_neg hfirst]
      cases rest with
      | nil => exact absurd hslice nofun
      | cons next rest =>
        simp only [sliceOffset] at hslice
        by_cases hsecond : next.IsSlice
        · rw [if_pos hsecond] at hslice
          exact ⟨fun _ => ⟨next, by simp, hsecond⟩, fun _ => hslice⟩
        · rw [if_neg hsecond] at hslice
          constructor
          · -- a later slice begins behind the second unit
            intro hsent
            exfalso
            cases hrest : sliceOffset rest with
            | none => simp [hrest] at hslice
            | some k =>
              have hlen := next.length_encode
              have hpos := next.length_bytes_pos
              simp only [hrest, Option.map_some, Option.some.injEq] at hslice
              simp only [List.head?_cons, Option.map_some, Option.some.injEq] at hsent
              omega
          · rintro ⟨n, hn, hns⟩
            simp only [List.take_succ_cons, List.take_zero, List.mem_cons, List.not_mem_nil,
              or_false] at hn
            rcases hn with rfl | rfl
            · exact absurd hns hfirst
            · exact absurd hns hsecond

theorem yangSendP_of_sign (h : UInt32.size ≤ 2 * frame.length)
    (hlt : frame.length < UInt32.size) : yangSendP frame = some [] := by
  have hnone : findNextStartCode frame 0 0 = some none := rfl
  unfold yangSendP
  dsimp only
  rw [frameLength_of_sign h hlt, hnone]
  rfl

/-- **Which slice is sent.** A frame with a coded slice is sent once, from its first slice to its
end, if and only if that is the first or the second unit and the length of the frame has no sign
bit. -/
theorem yangSendP_slice_iff {h : ℕ} (hslice : sliceOffset nals = some h)
    (hlt : (encodeNals nals).length < UInt32.size) :
    yangSendP (encodeNals nals) = some [(h, (encodeNals nals).length - h)] ↔
      2 * (encodeNals nals).length < UInt32.size ∧ ∃ nal ∈ nals.take 2, nal.IsSlice := by
  by_cases hshort : 2 * (encodeNals nals).length < UInt32.size
  · rw [← sentOffset_eq_iff hslice]
    cases nals with
    | nil => exact absurd hslice nofun
    | cons nal rest =>
      rw [yangSendP_eq rfl hshort]
      cases hsent : sentOffset (nal :: rest) with
      | none => simp
      | some k =>
        simp only [Option.toList_some, List.map_cons, List.map_nil, Option.some.injEq,
          List.cons.injEq, Prod.mk.injEq, and_true, hshort, true_and]
        constructor
        · exact fun heq => heq.1
        · rintro rfl
          exact ⟨rfl, rfl⟩
  · rw [yangSendP_of_sign (Nat.not_lt.mp hshort) hlt]
    exact ⟨fun hsent => absurd (Option.some.inj hsent) nofun, fun hsent => absurd hsent.1 hshort⟩

/-- A frame that is a start code of four bytes. -/
theorem eq_of_codeAt (hlength : frame.length = 4) (hzero : frame[0]? = some 0)
    (hcode : CodeAt frame 1) : frame = [0, 0, 0, 1] := by
  apply List.ext_getElem?
  intro i
  match i with
  | 0 => exact hzero
  | 1 => exact hcode.1
  | 2 => exact hcode.2.1
  | 3 => exact hcode.2.2
  | n + 4 => rw [List.getElem?_eq_none (by omega), List.getElem?_eq_none (by simp)]

/-- **What is read.** A frame of four bytes or more is read within its length, unless it is a
start code of four bytes alone. -/
theorem yangSendP_inBounds_iff (hframe : 4 ≤ frame.length) (hlt : frame.length < UInt32.size) :
    yangSendP frame ≠ none ↔ frame ≠ [0, 0, 0, 1] := by
  constructor
  · rintro h rfl
    exact h (by decide)
  · intro hne
    by_cases hshort : 2 * frame.length < UInt32.size
    · unfold yangSendP
      dsimp only
      rw [frameLength_eq hshort]
      rcases findNextStartCode_found frame 0 with ⟨p, l, k, hresult, -, hl, hk, hlen⟩ |
        ⟨hresult, -⟩
      · have hkl := hk.2.1.lt
        have hread : l < frame.length := by
          by_contra hnot
          -- the code has four bytes, and so has the frame
          have hk1 : k = 1 := by omega
          have hp : p = 0 := by omega
          subst hk1 hp
          rcases hlen with hlen | ⟨-, hzero⟩
          · omega
          · exact hne (eq_of_codeAt (by omega) hzero hk.2.1)
        rw [hresult]
        simp only [Option.bind_eq_bind, Option.bind_some, List.getElem?_eq_getElem hread]
        split
        · exact nofun
        · rcases findNextStartCode_found frame (p + l) with ⟨p', l', -, hresult', -⟩ |
            ⟨hresult', -⟩
          · rw [hresult']
            simp only [Option.bind_some]
            split
            · exact nofun
            · exact nofun
          · rw [hresult']
            exact nofun
      · rw [hresult]
        exact nofun
    · rw [yangSendP_of_sign (Nat.not_lt.mp hshort) hlt]
      exact nofun

/-- A frame with a coded slice is sent once, from the header of its first slice to its end, and
no frame is read at or behind its length. -/
def SendsFirstSlice (frame : List UInt8) : Prop :=
  (∀ nals h, frame = encodeNals nals → sliceOffset nals = some h →
    yangSendP frame = some [(h, frame.length - h)]) ∧ yangSendP frame ≠ none

/-- **The slice of a P frame.** For a frame of four bytes or more this holds if and only if the
frame is not a start code alone, and its first slice, if it has one, is the first or the second
unit (and its length has no sign bit). -/
theorem sendsFirstSlice_iff (frame : List UInt8) (hframe : 4 ≤ frame.length)
    (hlt : frame.length < UInt32.size) :
    SendsFirstSlice frame ↔ frame ≠ [0, 0, 0, 1] ∧
      ∀ nals h, frame = encodeNals nals → sliceOffset nals = some h →
        2 * frame.length < UInt32.size ∧ ∃ nal ∈ nals.take 2, nal.IsSlice := by
  unfold SendsFirstSlice
  rw [yangSendP_inBounds_iff hframe hlt, and_comm]
  refine and_congr_right fun _ => forall_congr' fun nals => forall_congr' fun h => ?_
  refine forall_congr' fun heq => forall_congr' fun hslice => ?_
  subst heq
  exact yangSendP_slice_iff hslice hlt

/-- A unit too short to hold a start code. -/
def shortNal (long : Bool) (b c : UInt8) : Nal where
  long := long
  bytes := [b, c]
  nonempty := List.cons_ne_nil _ _
  clean k h := by
    have := h.lt
    simp at this

/-- An access unit delimiter, supplemental information, and a slice. -/
def delimitedSlice : List Nal := [shortNal true 9 240, shortNal false 6 5, shortNal false 1 170]

/-- The supplemental information is sent as if it were the slice. -/
theorem not_sendsFirstSlice_delimited :
    ¬∀ frame : List UInt8, 4 ≤ frame.length → frame.length < UInt32.size →
      SendsFirstSlice frame := by
  intro h
  have hsent := (h (encodeNals delimitedSlice) (by decide) (by decide)).1 delimitedSlice 14 rfl
    (by decide)
  exact absurd hsent (by decide)

/-- A frame whose slice is the second unit. -/
theorem sendsFirstSlice_iff_delimited :
    SendsFirstSlice [0, 0, 0, 1, 9, 240, 0, 0, 1, 1, 170] ↔
      ([0, 0, 0, 1, 9, 240, 0, 0, 1, 1, 170] : List UInt8) ≠ [0, 0, 0, 1] ∧
        ∀ nals h, [0, 0, 0, 1, 9, 240, 0, 0, 1, 1, 170] = encodeNals nals →
          sliceOffset nals = some h → 2 * 11 < UInt32.size ∧ ∃ nal ∈ nals.take 2, nal.IsSlice :=
  sendsFirstSlice_iff _ (by decide) (by decide)

end Encoder

end YangIpc
