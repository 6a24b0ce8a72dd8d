import YangIpc.FrameQueue.Holds

/-!
# The order of deliveries

A registered consumer is given completed frames in the order of their completion, each at most
once, and none that was completed before it registered.  An H264 queue that is never cleared
skips nothing: it has no reuse of completed nodes.

## Main results

* `deliveries_follow_completions`: the two properties over runs
-/

namespace YangIpc

namespace FrameQueue

open Transition Bits Broadcast

variable {format : ImageFormat} {w : World} {c : Mask}

/-- The runs in which every consumer but `c` has an id without the bit of `c`. -/
def apartCall (format : ImageFormat) (c : Mask) (w : World) (call : Call) : Prop :=
  Running call ∧ Fresh format w.queue call ∧
    ∀ id, call.consumer = some id → id = c ∨ id &&& c = 0

/-- Single-bit consumers are equal or have no bit in common. -/
theorem SingleBit.apart {id : Mask} (hc : SingleBit c) (hid : SingleBit id) :
    id = c ∨ id &&& c = 0 := by
  obtain ⟨i, hi, rfl⟩ := hc
  obtain ⟨j, hj, rfl⟩ := hid
  by_cases hij : j = i
  · exact .inl (by rw [hij])
  · refine .inr (and_eq_zero_iff.mpr ?_)
    rw [bits_one_shiftLeft hi, bits_one_shiftLeft hj]
    exact Set.singleton_inter_eq_empty.mpr hij

theorem apart_of_apartCall {call : Call} {ev : Event Mask FrameAddr} {i : ℕ}
    (hbits : bits c = {i}) (hok : ∀ id, call.consumer = some id → id = c ∨ id &&& c = 0)
    (hcause : Causes format call ev) : Apart bits c i ev := by
  have hout : ∀ id, id = c ∨ id &&& c = 0 → id = c ∨ i ∉ bits id := by
    rintro id (rfl | hzero)
    · exact .inl rfl
    · refine .inr fun hi => ?_
      have hboth : i ∈ bits id ∩ bits c := ⟨hi, by simp [hbits]⟩
      rw [and_eq_zero_iff.mp hzero] at hboth
      exact hboth
  cases ev with
  | deliver id f =>
    obtain ⟨waits, rfl⟩ := hcause
    exact hout id (hok id rfl)
  | register id =>
    obtain rfl : call = .registerConsumer id := hcause
    exact hout id (hok id rfl)
  | unregister id =>
    obtain rfl : call = .unregisterConsumer id := hcause
    exact hout id (hok id rfl)
  | _ => trivial

/-- An H264 queue loses frames only to `clear_all`. -/
theorem lossless_of_causes {call : Call} {ev : Event Mask FrameAddr} (hclear : call ≠ .clearAll)
    (hcause : Causes .h264 call ev) : Lossless ev := by
  cases ev with
  | discard f => exact absurd rfl hcause.1
  | clear => exact absurd hcause hclear
  | _ => trivial

section Initial

variable {answer : ℕ → Option NodeId} {node : NodeId → FrameNode} {i : ℕ}

theorem initialised_entries :
    (World.mk (initialised format answer node) History.empty).abstract.entries = [] := by
  simp [World.abstract, FrameQueueV2.entries, (initialised_lists format answer node).2.1]

theorem initialised_account :
    (World.mk (initialised format answer node) History.empty).abstract.account c i = [] := by
  rw [State.account, initialised_entries]
  rfl

theorem inOrder_initialised :
    InOrder c i (World.mk (initialised format answer node) History.empty).abstract where
  pending := by simp [initialised_entries]
  sorted := by simp [initialised_account]
  period := by simp [initialised_account]
  begun := le_rfl

theorem exact_initialised :
    Exact c i (World.mk (initialised format answer node) History.empty).abstract where
  pending := by simp [initialised_entries]
  consecutive := by
    refine ⟨0, initialised_account, fun hi => ?_⟩
    simp [World.abstract, (initialised_lists format answer node).2.2.2] at hi

end Initial

/-- **Deliveries follow completions.** Whatever the other consumers do, the completions delivered
to a single-bit consumer since it registered are increasing, none is older than its registration,
and all have happened.  On an H264 queue that is never cleared the deliveries are the first
completions since the registration, none left out. -/
theorem deliveries_follow_completions {answer : ℕ → Option NodeId} {node : NodeId → FrameNode}
    (hnodes : (createdNodes format answer).Nodup) (hc : SingleBit c) :
    (∀ w, Reaches (Guarded (World.step format) (apartCall format c))
        ⟨initialised format answer node, History.empty⟩ w →
      (w.history.delivered c).Pairwise (· < ·) ∧
        ∀ t ∈ w.history.delivered c, w.history.since c ≤ t ∧ t < w.history.completed) ∧
    (format = .h264 → ∀ w,
      Reaches (Guarded (World.step format) fun w call => apartCall format c w call ∧
          call ≠ .clearAll) ⟨initialised format answer node, History.empty⟩ w →
        w.history.delivered c =
          List.range' (w.history.since c) (w.history.delivered c).length) := by
  obtain ⟨i, hi, rfl⟩ := hc
  have hbits := bits_one_shiftLeft (w := 32) hi
  -- what was delivered is the first part of the account
  have hsub : ∀ w : World, (w.history.delivered (1#32 <<< i)).Sublist
      (w.abstract.account (1#32 <<< i) i) := fun w => List.sublist_append_left _ _
  refine ⟨fun w h => ?_, ?_⟩
  · have hinv := (abstract_invariant (wellFormed_initialised node hnodes)
      (fun w call hok => ⟨hok.1, hok.2.1⟩) h inOrder_initialised
      fun w call ev s' hok hcause hinv hstep =>
        hinv.step hbits (apart_of_apartCall hbits hok.2.2 hcause) hstep).2
    exact ⟨hinv.sorted.sublist (hsub w), fun t ht => hinv.period t ((hsub w).subset ht)⟩
  · rintro rfl w h
    have hinv := (abstract_invariant (wellFormed_initialised node hnodes)
      (fun w call hok => ⟨hok.1.1, hok.1.2.1⟩) h exact_initialised
      fun w call ev s' hok hcause hinv hstep =>
        hinv.step hbits (apart_of_apartCall hbits hok.1.2.2 hcause)
          (lossless_of_causes hok.2 hcause) hstep).2
    obtain ⟨n, hn, -⟩ := hinv.consecutive
    obtain ⟨m, -, hm, -⟩ := List.range'_eq_append_iff.mp hn.symm
    -- the deliveries are a beginning of consecutive numbers
    have hlength : (w.history.delivered (1#32 <<< i)).length = m := by
      have hlen := congrArg List.length hm
      rwa [List.length_range'] at hlen
    rw [hlength]
    exact hm

/-- Consumer `1` is given two frames; the third is completed while it has the second. -/
def threeFrames : List Call :=
  [.registerConsumer 1, .malloc 64 (some 1000), .complete (some 1000), .malloc 64 (some 2000),
    .complete (some 2000), .getFrame 1 0, .releaseFrame 1 (some 1000), .malloc 64 (some 3000),
    .getFrame 1 0, .complete (some 3000)]

/-- A test of calls that only this consumer makes. -/
def ownCall (w : World) : Call → Bool
  | .malloc size answer => decide (Fresh .h264 w.queue (.malloc size answer))
  | .complete _ => true
  | .registerConsumer id | .getFrame id _ | .releaseFrame id _ => id = 1
  | _ => false

theorem apartCall_of_test {call : Call} (h : ownCall w call = true) :
    apartCall .h264 1 w call ∧ call ≠ .clearAll := by
  have hone (id : Mask) (hid : decide (id = 1) = true) :
      ∀ id', some id = some id' → id' = 1 ∨ id' &&& 1 = 0 :=
    fun id' heq => .inl ((Option.some.inj heq).symm.trans (of_decide_eq_true hid))
  cases call with
  | malloc size answer => exact ⟨⟨trivial, of_decide_eq_true h, nofun⟩, nofun⟩
  | complete frame => exact ⟨⟨trivial, trivial, nofun⟩, nofun⟩
  | registerConsumer id => exact ⟨⟨trivial, trivial, hone id h⟩, nofun⟩
  | getFrame id idx => exact ⟨⟨trivial, trivial, hone id h⟩, nofun⟩
  | releaseFrame id frame => exact ⟨⟨trivial, trivial, hone id h⟩, nofun⟩
  | _ => exact absurd h Bool.false_ne_true

/-- The same for a consumer that was given two frames of three. -/
theorem deliveries_follow_completions_h264 : ∃ w : World,
    w.history.delivered 1 = [0, 1] ∧ w.history.completed = 3 ∧
      (w.history.delivered 1).Pairwise (· < ·) ∧
      w.history.delivered 1 =
        List.range' (w.history.since 1) (w.history.delivered 1).length := by
  have hplay : (play (fun w call => some (call, World.call .h264 w call)) ownCall threeFrames
      h264World).any (fun w => w.history.delivered 1 = [0, 1] ∧ w.history.completed = 3) = true :=
    by decide +kernel
  have hnext (w : World) (call a : Call) (w' : World)
      (h : some (call, World.call .h264 w call) = some (a, w')) : World.step .h264 w a w' := by
    obtain ⟨rfl, rfl⟩ := Prod.mk.inj (Option.some.inj h)
    rfl
  obtain ⟨w, hrun, hw⟩ := exists_reaches_of_play hnext hplay
  obtain ⟨hdelivered, hcompleted⟩ := of_decide_eq_true hw
  have hone : SingleBit 1 := ⟨0, by omega, rfl⟩
  have hapart := hrun.weaken fun _ _ => apartCall_of_test
  refine ⟨w, hdelivered, hcompleted, ?_, ?_⟩
  · exact ((deliveries_follow_completions h264Nodes_nodup hone).1 w
      (hapart.weaken fun _ _ => And.left)).1
  · exact (deliveries_follow_completions h264Nodes_nodup hone).2 rfl w hapart

end FrameQueue

end YangIpc
