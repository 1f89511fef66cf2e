import DevKota.Runs
import Mathlib.Tactic

/-! Histories: what was observed along a run, oldest first, and precedence among the
observations. -/
namespace Histories

variable {A : Type*}

/-- `p` was observed, and `r` has not been observed after it. -/
def since (p r : A → Bool) (past : List A) : Bool :=
  past.foldl (fun seen a => p a || (seen && !r a)) false

/-- Between an observation of `p` and a later one of `q` there is one of `r`. -/
def Separated (p r q : A → Bool) (past : List A) : Prop :=
  ∀ (i j : ℕ) (a b : A), i < j → past[i]? = some a → past[j]? = some b → p a = true →
    q b = true → ∃ (k : ℕ) (c : A), i < k ∧ k < j ∧ past[k]? = some c ∧ r c = true

section Precedence
variable (p r q : A → Bool)

@[simp] theorem since_nil : since p r [] = false := rfl

theorem since_append (past : List A) (a : A) :
    since p r (past ++ [a]) = (p a || (since p r past && !r a)) := by
  simp [since]

theorem getElem?_concat (past : List A) (a b : A) (i : ℕ) (h : (past ++ [a])[i]? = some b) :
    past[i]? = some b ∨ i = past.length ∧ b = a := by
  rcases lt_trichotomy i past.length with hi | hi | hi
  · rw [List.getElem?_append_left hi] at h
    exact Or.inl h
  · subst hi
    rw [List.getElem?_concat_length] at h
    exact Or.inr ⟨rfl, (Option.some.inj h).symm⟩
  · rw [List.getElem?_eq_none (by simp; omega)] at h
    cases h

theorem since_iff (past : List A) :
    since p r past = true ↔ ∃ (i : ℕ) (a : A), past[i]? = some a ∧ p a = true ∧
      ∀ (k : ℕ) (c : A), i < k → past[k]? = some c → r c = false := by
  induction past using List.reverseRecOn with
  | nil => simp
  | append_singleton past b ih =>
    rw [since_append]
    constructor
    · intro h
      by_cases hp : p b = true
      · -- the newest observation has nothing after it
        refine ⟨past.length, b, by simp, hp, ?_⟩
        intro k c hk hc
        rw [List.getElem?_eq_none (by simp; omega)] at hc
        cases hc
      · -- an older `p` still waits, and the newest observation is no `r`
        simp only [hp, Bool.false_or, Bool.and_eq_true, Bool.not_eq_true'] at h
        obtain ⟨i, a, ha, hpa, hafter⟩ := ih.mp h.1
        have hi : i < past.length := (List.getElem?_eq_some_iff.mp ha).1
        refine ⟨i, a, by rw [List.getElem?_append_left hi, ha], hpa, ?_⟩
        intro k c hk hc
        rcases getElem?_concat past b c k hc with hc | ⟨-, hc⟩
        · exact hafter k c hk hc
        · exact hc ▸ h.2
    · intro h
      obtain ⟨i, a, ha, hpa, hafter⟩ := h
      rcases getElem?_concat past b a i ha with ha | ⟨-, rfl⟩
      · have hi : i < past.length := (List.getElem?_eq_some_iff.mp ha).1
        have hb : r b = false := hafter past.length b hi (by simp)
        have hold : since p r past = true := by
          refine ih.mpr ⟨i, a, ha, hpa, ?_⟩
          intro k c hk hc
          have hkl : k < past.length := (List.getElem?_eq_some_iff.mp hc).1
          exact hafter k c hk (by rw [List.getElem?_append_left hkl, hc])
        simp [hold, hb]
      · simp [hpa]

/-- Appending keeps the separation exactly when the new observation is no `q` that a `p`
still waits for. -/
theorem separated_append (past : List A) (b : A) :
    Separated p r q (past ++ [b]) ↔
      Separated p r q past ∧ (q b = true → since p r past = false) := by
  constructor
  · intro h
    refine ⟨?_, ?_⟩
    · intro i j a c hij ha hc hpa hqc
      have hi : i < past.length := (List.getElem?_eq_some_iff.mp ha).1
      have hj : j < past.length := (List.getElem?_eq_some_iff.mp hc).1
      obtain ⟨k, e, hik, hkj, he, hre⟩ := h i j a c hij
        (by rw [List.getElem?_append_left hi, ha]) (by rw [List.getElem?_append_left hj, hc]) hpa hqc
      rw [List.getElem?_append_left (by omega)] at he
      exact ⟨k, e, hik, hkj, he, hre⟩
    · -- a `p` that still waits would have no `r` between itself and the new `q`
      intro hqb
      by_contra hs
      obtain ⟨i, a, ha, hpa, hafter⟩ := (since_iff p r past).mp (by simpa using hs)
      have hi : i < past.length := (List.getElem?_eq_some_iff.mp ha).1
      obtain ⟨k, e, hik, hkj, he, hre⟩ := h i past.length a b hi
        (by rw [List.getElem?_append_left hi, ha]) (by simp) hpa hqb
      rw [List.getElem?_append_left hkj] at he
      rw [hafter k e hik he] at hre
      cases hre
  · intro h i j a c hij ha hc hpa hqc
    obtain ⟨hold, hnew⟩ := h
    have hj : j < (past ++ [b]).length := (List.getElem?_eq_some_iff.mp hc).1
    rw [List.length_append, List.length_singleton] at hj
    have hi : i < past.length := by omega
    rw [List.getElem?_append_left hi] at ha
    rcases getElem?_concat past b c j hc with hc | ⟨rfl, rfl⟩
    · have hjl : j < past.length := (List.getElem?_eq_some_iff.mp hc).1
      obtain ⟨k, e, hik, hkj, he, hre⟩ := hold i j a c hij ha hc hpa hqc
      exact ⟨k, e, hik, hkj, by rw [List.getElem?_append_left (by omega), he], hre⟩
    · -- with no `r` behind it the `p` at `i` would still wait
      by_contra hne
      have hs : since p r past = true := by
        refine (since_iff p r past).mpr ⟨i, a, ha, hpa, ?_⟩
        intro k e hik he
        by_contra hre
        have hk : k < past.length := (List.getElem?_eq_some_iff.mp he).1
        exact hne ⟨k, e, hik, hk, by rw [List.getElem?_append_left hk, he], by simpa using hre⟩
      rw [hnew hqc] at hs
      cases hs

end Precedence

/-- The machine that also keeps what was observed in every state it went through. -/
def recorded {S E : Type*} (step : S → E → Option S) (obs : S → A) (s : S × List A) (e : E) :
    Option (S × List A) :=
  (step s.1 e).map fun t => (t, s.2 ++ [obs t])

end Histories
