import Mathlib.Data.Nat.Notation
import YangIpc.Library.Run

/-!
# Progress

Steps of one party of a transition system are counted.  If a measure never grows, and falls with
every step of the party, the party takes no more steps than the measure allows, whatever the others
do in between.

## Main definitions

* `Counted own step s n t`: a run that leads from `s` to `t`, with `n` steps of the party

## Main results

* `Counted.bounded`: the bound, above an invariant of the run
* `counted_of_play`: the steps of a run that is played
-/

namespace Transition

variable {σ α : Type*} {own : α → Bool} {step : σ → α → σ → Prop} {s t u : σ} {n : ℕ} {a : α}

/-- Runs, with the number of the steps whose action is the party's own. -/
inductive Counted (own : α → Bool) (step : σ → α → σ → Prop) (s : σ) : ℕ → σ → Prop
  | refl : Counted own step s 0 s
  | tail {n : ℕ} {t u : σ} {a : α} (run : Counted own step s n t) (last : step t a u) :
      Counted own step s (n + (own a).toNat) u

theorem Counted.reaches (h : Counted own step s n t) : Reaches step s t := by
  induction h with
  | refl => exact .refl s
  | tail _ last ih => exact ih.tail last

theorem Counted.mono {step' : σ → α → σ → Prop} (h : Counted own step s n t)
    (hle : ∀ s a t, step s a t → step' s a t) : Counted own step' s n t := by
  induction h with
  | refl => exact .refl
  | tail _ last ih => exact ih.tail (hle _ _ _ last)

theorem Counted.head (first : step s a t) (h : Counted own step t n u) :
    Counted own step s ((own a).toNat + n) u := by
  induction h with
  | refl => exact Nat.add_comm _ _ ▸ .tail .refl first
  | tail _ last ih => exact Nat.add_assoc _ _ _ ▸ ih.tail last

/-- **A run that is played**, by moves that are their own actions. -/
theorem counted_of_play {next : σ → α → Option σ} {allowed : σ → α → Bool} {l : List α}
    (hnext : ∀ s a t, next s a = some t → step s a t) :
    ∀ {s}, play (fun s a => (next s a).map (a, ·)) allowed l s = some t →
      Counted own (Guarded step fun s a => allowed s a = true) s (l.countP own) t := by
  induction l with
  | nil =>
    intro s h
    obtain rfl : s = t := by simpa [play] using h
    exact .refl
  | cons b rest ih =>
    intro s h
    simp only [play] at h
    split at h
    · rename_i a u hu
      obtain ⟨v, hv, heq⟩ := Option.map_eq_some_iff.mp hu
      obtain ⟨rfl, rfl⟩ := Prod.mk.inj heq
      split at h
      · rename_i hok
        have hcount : (b :: rest).countP own = (own b).toNat + rest.countP own := by
          rw [List.countP_cons, Nat.add_comm]
          cases own b <;> rfl
        exact hcount ▸ (ih h).head ⟨hok, hnext s b v hv⟩
      · simp at h
    · simp at h

/-- **A falling measure bounds the steps.** -/
theorem Counted.bounded {C : σ → Prop} {m : σ → ℕ} (h : Counted own step s n t) (hs : C s)
    (hkeep : ∀ t a u, C t → step t a u → C u)
    (hfall : ∀ t a u, C t → step t a u → m u + (own a).toNat ≤ m t) : n + m t ≤ m s := by
  induction h with
  | refl => exact Nat.le_of_eq (Nat.zero_add _)
  | @tail n t u a run last ih =>
    have ht : C t := run.reaches.invariant hs hkeep
    calc n + (own a).toNat + m u = n + (m u + (own a).toNat) := by omega
      _ ≤ n + m t := Nat.add_le_add_left (hfall t a u ht last) n
      _ ≤ m s := ih

end Transition
