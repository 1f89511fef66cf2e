import Mathlib.Logic.Relation
import Mathlib.Data.List.Basic

/-! Runs of a machine whose labelled steps may be disabled or may fail. -/
namespace Runs

variable {S E : Type*}

/-- One enabled step whose label and source state meet the guard. -/
def StepBy (step : S → E → Option S) (guard : S → E → Prop) (s t : S) : Prop :=
  ∃ e, guard s e ∧ step s e = some t

/-- States reached by any number of guarded steps. -/
def Reach (step : S → E → Option S) (guard : S → E → Prop) (s t : S) : Prop :=
  Relation.ReflTransGen (StepBy step guard) s t

variable {step : S → E → Option S} {guard : S → E → Prop}

theorem reach_refl (s : S) : Reach step guard s s :=
  Relation.ReflTransGen.refl

theorem reach_tail {s t u : S} (e : E) (h : Reach step guard s t) (hg : guard t e)
    (hs : step t e = some u) : Reach step guard s u :=
  Relation.ReflTransGen.tail h ⟨e, hg, hs⟩

theorem reach_weaken {s t : S} (h : Reach step guard s t) :
    Reach step (fun _ _ => True) s t := by
  have hle : StepBy step guard ≤ StepBy step (fun _ _ => True) := by
    rintro s t ⟨e, -, he⟩
    exact ⟨e, trivial, he⟩
  exact Relation.ReflTransGen.mono hle s t h

/-- A predicate kept by every guarded step holds along every guarded run. -/
theorem reach_invariant {I : S → Prop} {s t : S}
    (hstep : ∀ s e t, I s → guard s e → step s e = some t → I t)
    (h : Reach step guard s t) (hs : I s) : I t := by
  induction h with
  | refl => exact hs
  | tail _ hst ih =>
    obtain ⟨e, hg, he⟩ := hst
    exact hstep _ e _ ih hg he

/-- A predicate kept by every step, with a second invariant already known of the run. -/
theorem reach_invariant_with {I J : S → Prop} {s t : S}
    (hJ : ∀ t, Reach step guard s t → J t)
    (hstep : ∀ s e t, J s → J t → I s → guard s e → step s e = some t → I t)
    (h : Reach step guard s t) (hs : I s) : I t := by
  induction h with
  | refl => exact hs
  | tail hr hst ih =>
    obtain ⟨e, hg, he⟩ := hst
    exact hstep _ e _ (hJ _ hr) (hJ _ (reach_tail e hr hg he)) ih hg he

/-- Execute a list of labels; the run is refused at the first label that is disabled
or that misses the guard. -/
def run (step : S → E → Option S) (guard : S → E → Bool) : S → List E → Option S
  | s, [] => some s
  | s, e :: es => if guard s e then (step s e).bind fun t => run step guard t es else none

theorem reach_of_run {check : S → E → Bool} (hg : ∀ s e, check s e = true → guard s e)
    {s t u : S} (es : List E) (hr : Reach step guard s t) (h : run step check t es = some u) :
    Reach step guard s u := by
  induction es generalizing t with
  | nil =>
    simp only [run, Option.some.injEq] at h
    exact h ▸ hr
  | cons e es ih =>
    simp only [run] at h
    split at h
    · rename_i hc
      obtain ⟨v, hv, hu⟩ := Option.bind_eq_some_iff.mp h
      exact ih (reach_tail e hr (hg t e hc) hv) hu
    · cases h

/-- A state with a decidable property, found by executing labels from the start. -/
theorem exists_reach_of_run (step : S → E → Option S) (s : S) {check : S → E → Bool}
    (hg : ∀ s e, check s e = true → guard s e) (es : List E) (p : S → Bool)
    (h : (run step check s es).any p = true) : ∃ t, Reach step guard s t ∧ p t = true := by
  cases hr : run step check s es with
  | none => simp [hr] at h
  | some t => exact ⟨t, reach_of_run hg es (reach_refl s) hr, by simpa [hr] using h⟩

theorem exists_reach_of_free_run (step : S → E → Option S) (s : S) (es : List E) (p : S → Bool)
    (h : (run step (fun _ _ => true) s es).any p = true) :
    ∃ t, Reach step (fun _ _ => True) s t ∧ p t = true :=
  exists_reach_of_run step s (fun _ _ _ => trivial) es p h

/-- The predicate holds in every state that the labels lead through. -/
def Always (step : S → E → Option S) (P : S → Prop) : S → List E → Prop
  | s, [] => P s
  | s, e :: es => P s ∧ ∀ t, step s e = some t → Always step P t es

/-- Every label meets the guard in the state it is taken in. -/
def Meets (step : S → E → Option S) (guard : S → E → Prop) : S → List E → Prop
  | _, [] => True
  | s, e :: es => guard s e ∧ ∀ t, step s e = some t → Meets step guard t es

theorem run_cons {check : S → E → Bool} {s u : S} {e : E} {es : List E}
    (h : run step check s (e :: es) = some u) :
    check s e = true ∧ ∃ t, step s e = some t ∧ run step check t es = some u := by
  simp only [run] at h
  split_ifs at h with hc
  obtain ⟨t, ht, hu⟩ := Option.bind_eq_some_iff.mp h
  exact ⟨hc, t, ht, hu⟩

theorem run_free {check : S → E → Bool} {s t : S} {es : List E}
    (h : run step check s es = some t) : run step (fun _ _ => true) s es = some t := by
  induction es generalizing s with
  | nil => exact h
  | cons e es ih =>
    obtain ⟨-, u, hu, hrest⟩ := run_cons h
    simp only [run, if_true, hu, Option.bind_some]
    exact ih hrest

theorem run_append {check : S → E → Bool} (s : S) (es fs : List E) :
    run step check s (es ++ fs) = (run step check s es).bind fun t => run step check t fs := by
  induction es generalizing s with
  | nil => rfl
  | cons e es ih =>
    simp only [List.cons_append, run]
    split_ifs
    · cases step s e with
      | none => rfl
      | some t => exact ih t
    · rfl

theorem run_concat (s : S) (es : List E) (e : E) :
    run step (fun _ _ => true) s (es ++ [e]) =
      (run step (fun _ _ => true) s es).bind fun t => step t e := by
  rw [run_append]
  apply congrArg
  funext t
  simp [run]

theorem run_invariant {check : S → E → Bool} {I : S → Prop} {s t : S} {es : List E}
    (hstep : ∀ s e t, I s → check s e = true → step s e = some t → I t)
    (h : run step check s es = some t) (hs : I s) : I t := by
  induction es generalizing s with
  | nil => exact Option.some.inj h ▸ hs
  | cons e es ih =>
    obtain ⟨hc, u, hu, hrest⟩ := run_cons h
    exact ih hrest (hstep s e u hs hc hu)

theorem always_last {check : S → E → Bool} {P : S → Prop} {s t : S} {es : List E}
    (ha : Always step P s es) (h : run step check s es = some t) : P t := by
  induction es generalizing s with
  | nil => exact Option.some.inj h ▸ ha
  | cons e es ih =>
    obtain ⟨-, u, hu, hrest⟩ := run_cons h
    exact ih (ha.2 u hu) hrest

theorem always_first {P : S → Prop} {s : S} {es : List E} (h : Always step P s es) : P s := by
  cases es with
  | nil => exact h
  | cons e es => exact h.1

/-- Where a step keeps the predicate exactly when it meets the guard, a run that begins in the
predicate stays in it exactly when all of its steps meet the guard. -/
theorem always_iff_meets {check : S → E → Bool} {I P : S → Prop} {s t : S} {es : List E}
    (hI : ∀ s e t, I s → check s e = true → step s e = some t → I t)
    (hP : ∀ s e t, I s → P s → check s e = true → step s e = some t → (P t ↔ guard s e))
    (h : run step check s es = some t) (hi : I s) (hp : P s) :
    Always step P s es ↔ Meets step guard s es := by
  induction es generalizing s with
  | nil => exact ⟨fun _ => trivial, fun _ => hp⟩
  | cons e es ih =>
    obtain ⟨hc, u, hu, hrest⟩ := run_cons h
    have hiff := hP s e u hi hp hc hu
    have hiu := hI s e u hi hc hu
    constructor
    · intro ha
      have hau := ha.2 u hu
      -- the first state of the rest is the one this step led to
      have hpu : P u := by
        cases es with
        | nil => exact hau
        | cons e' es => exact hau.1
      refine ⟨hiff.mp hpu, fun v hv => ?_⟩
      rw [hu] at hv
      exact Option.some.inj hv ▸ (ih hrest hiu hpu).mp hau
    · intro hm
      refine ⟨hp, fun v hv => ?_⟩
      rw [hu] at hv
      exact Option.some.inj hv ▸ (ih hrest hiu (hiff.mpr hm.1)).mpr (hm.2 u hu)

/-- What the labels of a run come to, each counted in the state it is taken in. -/
def tally (step : S → E → Option S) (count : S → E → ℕ) : S → List E → ℕ
  | _, [] => 0
  | s, e :: es => count s e + ((step s e).map fun t => tally step count t es).getD 0

/-- Along a guarded run what is taken and what is released balance, if they do in each step. -/
theorem tally_balance {check : S → E → Bool} {I : S → Prop} {f : S → ℕ} {taken released : S → E → ℕ}
    (hstep : ∀ s e t, I s → guard s e → step s e = some t →
      I t ∧ f t + released s e = f s + taken s e)
    {s t : S} {es : List E} (h : run step check s es = some t) (hm : Meets step guard s es)
    (hs : I s) :
    I t ∧ f t + tally step released s es = f s + tally step taken s es := by
  induction es generalizing s with
  | nil => exact Option.some.inj h ▸ ⟨hs, rfl⟩
  | cons e es ih =>
    obtain ⟨-, u, hu, hrest⟩ := run_cons h
    obtain ⟨hiu, hfirst⟩ := hstep s e u hs hm.1 hu
    obtain ⟨hit, hlater⟩ := ih hrest (hm.2 u hu) hiu
    refine ⟨hit, ?_⟩
    simp only [tally, hu, Option.map_some, Option.getD_some]
    omega

/-- A predicate that no step brings back holds throughout a run exactly when it holds at its end. -/
theorem always_iff_last {check : S → E → Bool} {P : S → Prop} {s t : S} {es : List E}
    (hlost : ∀ s e t, ¬ P s → check s e = true → step s e = some t → ¬ P t)
    (h : run step check s es = some t) : Always step P s es ↔ P t := by
  refine ⟨fun ha => always_last ha h, fun ht => ?_⟩
  induction es generalizing s with
  | nil => exact Option.some.inj h ▸ ht
  | cons e es ih =>
    obtain ⟨-, u, hu, hrest⟩ := run_cons h
    refine ⟨?_, fun v hv => ?_⟩
    · by_contra hs
      exact run_invariant (I := fun s => ¬ P s) hlost h hs ht
    · rw [hu] at hv
      exact Option.some.inj hv ▸ ih hrest

theorem meets_of_run {check : S → E → Bool} (hg : ∀ s e, check s e = true → guard s e) {s t : S}
    {es : List E} (h : run step check s es = some t) : Meets step guard s es := by
  induction es generalizing s with
  | nil => trivial
  | cons e es ih =>
    obtain ⟨hc, u, hu, hrest⟩ := run_cons h
    refine ⟨hg s e hc, fun v hv => ?_⟩
    rw [hu] at hv
    exact Option.some.inj hv ▸ ih hrest

/-- A second machine takes the same steps and is refused exactly where a step is not sound. In a
guarded run it gets through exactly when every step is sound. -/
theorem run_isSome_iff_meets {F : Type*} {fstep : S → F → Option S} {sound : S → E → Prop}
    {I : S → Prop} (ev : F → E) (hI : ∀ s e t, I s → guard s e → step s e = some t → I t)
    (hsound : ∀ s f, I s → guard s (ev f) → sound s (ev f) →
      ∃ t, step s (ev f) = some t ∧ fstep s f = some t)
    (hfault : ∀ s f, I s → guard s (ev f) → ¬ sound s (ev f) → fstep s f = none)
    {s : S} {fs : List F} (hm : Meets step guard s (fs.map ev)) (hs : I s) :
    (run fstep (fun _ _ => true) s fs).isSome = true ↔ Meets step sound s (fs.map ev) := by
  induction fs generalizing s with
  | nil => exact ⟨fun _ => trivial, fun _ => rfl⟩
  | cons f fs ih =>
    obtain ⟨hg, hrest⟩ := hm
    simp only [run, if_true]
    -- a sound event is the same step in both; one that is not ends the second run
    by_cases hok : sound s (ev f)
    · obtain ⟨t, ht, hft⟩ := hsound s f hs hg hok
      have hiff := ih (hrest t ht) (hI s (ev f) t hs hg ht)
      rw [hft, Option.bind_some, hiff]
      constructor
      · intro hmt
        refine ⟨hok, fun u hu => ?_⟩
        rw [ht] at hu
        exact Option.some.inj hu ▸ hmt
      · intro hmt
        exact hmt.2 t ht
    · rw [hfault s f hs hg hok]
      constructor
      · intro hnone
        cases hnone
      · intro hmt
        exact absurd hmt.1 hok

/-- Steps that are matched by the steps of a second machine, state by state through `abs`,
match along whole runs. -/
theorem reach_simulates {A F : Type*} {astep : A → F → Option A} {aguard : A → F → Prop}
    {I : S → Prop} (abs : S → A) {s t : S}
    (hinv : ∀ s e t, I s → guard s e → step s e = some t → I t)
    (hsim : ∀ s e t, I s → guard s e → step s e = some t →
      Reach astep aguard (abs s) (abs t))
    (h : Reach step guard s t) (hs : I s) : Reach astep aguard (abs s) (abs t) := by
  induction h with
  | refl => exact reach_refl _
  | tail hr hst ih =>
    obtain ⟨e, hg, he⟩ := hst
    exact Relation.ReflTransGen.trans ih (hsim _ e _ (reach_invariant hinv hr hs) hg he)

/-- A machine that is matched exactly by a second one, step by step through `abs`, is matched
along every list of labels, refused ones included. -/
theorem run_simulates {A : Type*} {astep : A → E → Option A} {I : S → Prop} (abs : S → A) {s : S}
    (hinv : ∀ s e t, I s → step s e = some t → I t)
    (hsim : ∀ s e, I s → (step s e).map abs = astep (abs s) e) (hs : I s) (es : List E) :
    (run step (fun _ _ => true) s es).map abs = run astep (fun _ _ => true) (abs s) es := by
  induction es generalizing s with
  | nil => rfl
  | cons e es ih =>
    have hse := hsim s e hs
    simp only [run, if_true, ← hse]
    cases ht : step s e with
    | none => rfl
    | some t =>
      simp only [Option.bind_some, Option.map_some]
      exact ih (hinv s e t hs ht)

end Runs
