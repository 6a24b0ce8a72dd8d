import Mathlib.Logic.Relation

/-!
# Runs of a transition system

A transition system is a relation `step s a t`: from `s`, the action `a` leads to `t`.  A run is
a finite sequence of steps.  Conditions on the environment are guards on single steps, and a
safety property is proved by an invariant that every guarded step preserves.

## Main definitions

* `Reaches step s t`: a run leads from `s` to `t`
* `Guarded step ok`: the steps whose action is allowed in the state before it
* `play next allowed`: the run a list of moves describes, when steps are computable
* `Along next P s l`: `P` holds of every step of the run of a deterministic system

## Main results

* `Reaches.invariant`: a property kept by every step is kept by every run
* `Reaches.mono`: fewer guards, more runs
* `exists_reaches_of_play`: what is found at the end of a played run holds of a reachable state
* `along_congr`, `along_congr_of`: two properties of steps that agree above an invariant agree
  along runs
* `Along.invariant`: what the steps of a deterministic run preserve holds at its end
-/

namespace Transition

variable {σ α : Type*} {step : σ → α → σ → Prop} {ok ok' : σ → α → Prop} {s t u : σ}

/-- Some run of `step` leads from `s` to `t`. -/
def Reaches (step : σ → α → σ → Prop) : σ → σ → Prop :=
  Relation.ReflTransGen fun s t => ∃ a, step s a t

/-- The steps of `step` whose action is allowed by `ok` in the state before the step. -/
def Guarded (step : σ → α → σ → Prop) (ok : σ → α → Prop) : σ → α → σ → Prop :=
  fun s a t => ok s a ∧ step s a t

theorem Reaches.refl (s : σ) : Reaches step s s := Relation.ReflTransGen.refl

theorem Reaches.tail {a : α} (h : Reaches step s t) (ha : step t a u) : Reaches step s u :=
  Relation.ReflTransGen.tail h ⟨a, ha⟩

theorem Reaches.head {a : α} (ha : step s a t) (h : Reaches step t u) : Reaches step s u :=
  Relation.ReflTransGen.head ⟨a, ha⟩ h

/-- **Invariants hold along runs.** -/
theorem Reaches.invariant {P : σ → Prop} (h : Reaches step s t) (h₀ : P s)
    (hstep : ∀ t a u, P t → step t a u → P u) : P t := by
  induction h with
  | refl => exact h₀
  | tail _ ha ih =>
    obtain ⟨a, ha⟩ := ha
    exact hstep _ a _ ih ha

theorem Reaches.mono {step' : σ → α → σ → Prop} (h : Reaches step s t)
    (hle : ∀ s a t, step s a t → step' s a t) : Reaches step' s t :=
  Relation.ReflTransGen.mono (fun _ _ ⟨a, ha⟩ => ⟨a, hle _ a _ ha⟩) _ _ h

/-- A weaker guard has every run of a stronger one. -/
theorem Reaches.weaken (h : Reaches (Guarded step ok) s t)
    (hle : ∀ s a, ok s a → ok' s a) : Reaches (Guarded step ok') s t :=
  h.mono fun _ _ _ ha => ⟨hle _ _ ha.1, ha.2⟩

/-! ## Played runs -/

section Play

variable {β : Type*} {next : σ → β → Option (α × σ)} {allowed : σ → α → Bool}

/-- The state after a list of moves, if the action of each of them is possible and allowed. -/
def play (next : σ → β → Option (α × σ)) (allowed : σ → α → Bool) : List β → σ → Option σ
  | [], s => some s
  | b :: rest, s =>
    match next s b with
    | some (a, t) => if allowed s a then play next allowed rest t else none
    | none => none

/-- Actions that are their own moves. -/
theorem next_of_labelled {next : σ → α → Option σ} {a b : α} {s t : σ}
    (h : (next s b).map (b, ·) = some (a, t)) : next s a = some t := by
  obtain ⟨u, hu, heq⟩ := Option.map_eq_some_iff.mp h
  obtain ⟨rfl, rfl⟩ := Prod.mk.inj heq
  exact hu

theorem reaches_of_play (hnext : ∀ s b a t, next s b = some (a, t) → step s a t) {l : List β} :
    ∀ {s}, play next allowed l s = some t →
      Reaches (Guarded step fun s a => allowed s a = true) s t := by
  induction l with
  | nil =>
    intro s h
    obtain rfl : s = t := by simpa [play] using h
    exact .refl s
  | cons b rest ih =>
    intro s h
    simp only [play] at h
    split at h
    · rename_i a u hu
      split at h
      · rename_i hok
        exact .head ⟨hok, hnext s b a u hu⟩ (ih h)
      · simp at h
    · simp at h

theorem exists_reaches_of_play (hnext : ∀ s b a t, next s b = some (a, t) → step s a t)
    {l : List β} {p : σ → Bool} (h : (play next allowed l s).any p = true) :
    ∃ t, Reaches (Guarded step fun s a => allowed s a = true) s t ∧ p t = true := by
  obtain ⟨t, ht, hp⟩ := (Option.any_eq_true _ _).mp h
  exact ⟨t, reaches_of_play hnext ht, hp⟩

end Play

/-! ## Deterministic systems -/

section Along

variable {next : σ → α → σ} {P Q : σ → α → Prop}

/-- `P` holds of every step of the run from `s` with the actions `l`. -/
def Along (next : σ → α → σ) (P : σ → α → Prop) : σ → List α → Prop
  | _, [] => True
  | s, a :: rest => P s a ∧ Along next P (next s a) rest

/-- Two properties of steps agree along runs if they agree above an invariant that they keep. -/
theorem along_congr {B : σ → Prop} {l : List α}
    (hiff : ∀ s, B s → ∀ a ∈ l, (P s a ↔ Q s a))
    (hnext : ∀ s, B s → ∀ a ∈ l, P s a → B (next s a)) :
    ∀ s, B s → (Along next P s l ↔ Along next Q s l) := by
  induction l with
  | nil => exact fun _ _ => Iff.rfl
  | cons a rest ih =>
    intro s hs
    have hhead := hiff s hs a List.mem_cons_self
    have hrest := ih (fun s hs b hb => hiff s hs b (List.mem_cons_of_mem _ hb))
      fun s hs b hb => hnext s hs b (List.mem_cons_of_mem _ hb)
    constructor
    · rintro ⟨hp, h⟩
      exact ⟨hhead.mp hp, (hrest _ (hnext s hs a List.mem_cons_self hp)).mp h⟩
    · rintro ⟨hq, h⟩
      exact ⟨hhead.mpr hq, (hrest _ (hnext s hs a List.mem_cons_self (hhead.mpr hq))).mpr h⟩

theorem along_and {l : List α} :
    ∀ {s}, Along next (fun s a => P s a ∧ Q s a) s l ↔ Along next P s l ∧ Along next Q s l := by
  induction l with
  | nil => exact fun {s} => Iff.of_eq (and_self _).symm
  | cons a rest ih =>
    intro s
    show (P s a ∧ Q s a) ∧ Along next (fun s a => P s a ∧ Q s a) (next s a) rest ↔ _
    rw [ih]
    exact and_and_and_comm

/-- The agreement needed only where the environment keeps a promise. -/
theorem along_congr_of {ok : σ → α → Prop} {B : σ → Prop} {l : List α}
    (hiff : ∀ s a, B s → ok s a → (P s a ↔ Q s a))
    (hnext : ∀ s a, B s → ok s a → B (next s a)) (hs : B s) (hok : Along next ok s l) :
    Along next P s l ↔ Along next Q s l := by
  have h : Along next (fun s a => ok s a ∧ P s a) s l ↔
      Along next (fun s a => ok s a ∧ Q s a) s l :=
    along_congr (fun s hs a _ => and_congr_right (hiff s a hs))
      (fun s hs a _ hp => hnext s a hs hp.1) s hs
  rw [along_and, along_and] at h
  simpa [hok] using h

theorem along_append {l₁ l₂ : List α} :
    ∀ {s}, Along next P s (l₁ ++ l₂) ↔ Along next P s l₁ ∧ Along next P (l₁.foldl next s) l₂ := by
  induction l₁ with
  | nil => exact fun {s} => Iff.of_eq (true_and _).symm
  | cons b rest ih =>
    intro s
    show P s b ∧ Along next P (next s b) (rest ++ l₂) ↔ _
    rw [ih]
    exact and_assoc.symm

/-- Along a run a decidable property can be checked step by step. -/
instance Along.decidable [∀ s a, Decidable (P s a)] (s : σ) (l : List α) :
    Decidable (Along next P s l) :=
  match l with
  | [] => inferInstanceAs (Decidable True)
  | a :: rest =>
    have := Along.decidable (next s a) rest
    inferInstanceAs (Decidable (P s a ∧ Along next P (next s a) rest))

/-- An invariant of the steps holds at the end of a run. -/
theorem Along.invariant {B : σ → Prop} {l : List α} (h : Along next P s l)
    (hnext : ∀ s, ∀ a ∈ l, B s → P s a → B (next s a)) (hs : B s) : B (l.foldl next s) := by
  induction l generalizing s with
  | nil => exact hs
  | cons a rest ih =>
    refine ih h.2 (fun s b hb => hnext s b (List.mem_cons_of_mem _ hb)) ?_
    exact hnext s a List.mem_cons_self hs h.1

end Along

end Transition
