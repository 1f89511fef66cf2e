import DevKota.Lab3Owners
import DevKota.Lab3Proc

/-! The remaining seconds that the lab3 driver prints, against exact arithmetic on the
unbounded clock. -/
namespace DevKota.Lab3
open CString Kernel Runs WrappedClock

/-- The instant and the seconds with which each slot was last armed. -/
abbrev Armings := Fin maxTimers → ℕ × ℕ

/-- The slot that a write arms, if it arms one. -/
def Driver.armsAt (d : Driver) (buf : UserBuf) : Option (Fin maxTimers) :=
  if accepted buf ∧ commandOf buf = .set then
    match d.findMsg (parseMsg (pad 150 buf.bytes)) with
    | some k => some k
    | none => d.insertsAt buf
  else none

def recordArming (s : State) (a : Armings) : Event → Armings
  | .write _ buf =>
    match s.driver.armsAt buf with
    | some k => Function.update a k (s.now, (parseSec (pad 150 buf.bytes)).toNat)
    | none => a
  | _ => a

/-- The driver with a record of the last armings. -/
def armedStep (cfg : Config) (s : State × Armings) (e : Event) : Option (State × Armings) :=
  (step cfg s.1 e).map fun t => (t, recordArming s.1 s.2 e)

def deadline (cfg : Config) (a : ℕ × ℕ) : ℕ := a.1 + a.2*cfg.HZ

/-- The whole seconds left at an instant, and zero from the deadline on. -/
def exactRemaining (cfg : Config) (now due : ℕ) : ℕ := (max 0 (((due:ℤ)-now)/cfg.HZ)).toNat

/-- The listing and the report under `/proc` print the exact number. -/
structure ReportsExactly (cfg : Config) (now : ℕ) (k : Fin maxTimers) (t : TimerInfo)
    (due : ℕ) : Prop where
  line : Driver.listingLine cfg now t =
    t.msg ++ ascii " " ++ decimal (exactRemaining cfg now due) ++ ascii "\n"
  block : Driver.procBlock cfg now k t =
    Driver.procTitle k ++ ascii "\ncalling pid: " ++ decimal t.ownerPid ++ ascii "\ncommand: " ++
      t.command ++ ascii "\nexpiration: " ++ decimal (exactRemaining cfg now due) ++ ascii " s\n"

section Arithmetic
variable (cfg : Config)

theorem exactRemaining_eq (now due : ℕ) : exactRemaining cfg now due = (due-now)/cfg.HZ := by
  have hz : (0:ℤ) < cfg.HZ := by exact_mod_cast cfg.HZ_pos
  unfold exactRemaining
  by_cases hle : now ≤ due
  · have hcast : ((due:ℤ)-now)/cfg.HZ = ((due-now)/cfg.HZ : ℕ) := by
      rw [Int.natCast_ediv, Int.ofNat_sub hle]
    rw [hcast, max_eq_right (Int.natCast_nonneg _), Int.toNat_natCast]
  · -- past the deadline the quotient is negative
    have hneg : ((due:ℤ)-now)/cfg.HZ < 0 := Int.ediv_neg_of_neg_of_pos (by omega) hz
    have hsub : due - now = 0 := by omega
    rw [hsub, Nat.zero_div]
    omega

/-- The quotient that is printed is exact up to the deadline, and behind it only while the
wrapped difference is below one second. -/
theorem quotient_exact_iff (now due : ℕ) (hlt : due < now + 2^32) :
    (jiffies due - jiffies now).toNat/cfg.HZ = exactRemaining cfg now due ↔
      now ≤ due ∨ (now-due)%2^32 = 0 ∨ 2^32 - cfg.HZ < (now-due)%2^32 := by
  have hz : (0:ℤ) < cfg.HZ := by exact_mod_cast cfg.HZ_pos
  have hz1000 := cfg.HZ_le
  have hdiff : ((jiffies due - jiffies now).toNat : ℤ) = ((due:ℤ)-now) % 2^32 := by
    rw [jiffies_eq, jiffies_eq]
    exact shown_sub_toNat 32 due now
  have hexact : (exactRemaining cfg now due : ℤ) = max 0 (((due:ℤ)-now)/cfg.HZ) :=
    Int.toNat_of_nonneg (le_max_left _ _)
  rw [← Int.natCast_inj, Int.natCast_ediv, hdiff, hexact,
    wrapped_ediv_iff hz (by omega) (by omega)]
  omega

/-- Printed numbers are equal exactly when they print alike. -/
theorem decimal_injective (m n : ℕ) (h : decimal m = decimal n) : m = n := by
  have hd := congrArg (digitRun 0) h
  simpa using hd

theorem reportsExactly_iff (now : ℕ) (k : Fin maxTimers) (t : TimerInfo) (due : ℕ) :
    ReportsExactly cfg now k t due ↔
      Driver.remaining cfg now t = exactRemaining cfg now due := by
  constructor
  · intro h
    have hline := h.line
    unfold Driver.listingLine at hline
    have hnum := List.append_cancel_right hline
    exact decimal_injective _ _ (List.append_cancel_left hnum)
  · intro h
    constructor
    · unfold Driver.listingLine
      rw [h]
    · unfold Driver.procBlock
      rw [h]

end Arithmetic

section Arming
variable (cfg : Config) (now : ℕ) (current : Task) (d : Driver) (buf : UserBuf)

/-- A set command changes one slot, to a timer armed for the exact deadline, or nothing. -/
theorem writeSet_arms (ha : accepted buf) (hc : commandOf buf = .set) :
    match d.armsAt buf with
    | some k => ∃ t : TimerInfo,
        (d.writeSet cfg now current (pad 150 buf.bytes)).timers = Function.update d.timers k t ∧
          t.timer.expires = jiffies (now + (parseSec (pad 150 buf.bytes)).toNat*cfg.HZ)
    | none => (d.writeSet cfg now current (pad 150 buf.bytes)).timers = d.timers := by
  have hd := (due_parseSec cfg now (pad 150 buf.bytes)).2
  unfold Driver.armsAt
  rw [if_pos ⟨ha, hc⟩]
  rcases writeSet_cases cfg now current d buf ha hc with
    ⟨j, hf, -, ht⟩ | ⟨i, hf, hins, ht⟩ | ⟨hf, hins, ht⟩
  · rw [hf]
    exact ⟨_, ht, hd⟩
  · rw [hf]
    simp only [hins]
    exact ⟨_, ht, hd⟩
  · rw [hf]
    simp only [hins]
    exact ht

/-- An armed timer's word is the low word of its deadline, less than a turn ahead. -/
structure ArmedFor (now : ℕ) (t : TimerList Handler) (a : ℕ × ℕ) : Prop where
  expires : t.expires = jiffies (deadline cfg a)
  armed : a.1 ≤ now
  seconds : a.2 < 100000

def ArmedExact (s : State × Armings) : Prop :=
  ∀ k, (s.1.driver.timers k).timer.pending = true →
    ArmedFor cfg s.1.now (s.1.driver.timers k).timer (s.2 k)

theorem armedExact_write (s : State) (a : Armings) (h : ArmedExact cfg (s,a)) :
    ArmedExact cfg ({ s with driver := (s.driver.mytimerWrite cfg s.now current buf).1 },
      recordArming s a (.write current buf)) := by
  intro k hp
  simp only [recordArming]
  simp only [mytimerWrite_eq] at hp ⊢
  by_cases ha : accepted buf
  · simp only [if_pos ha] at hp ⊢
    cases hc : commandOf buf with
    | set =>
      simp only [hc] at hp ⊢
      have harms := writeSet_arms cfg s.now current s.driver buf ha hc
      cases hat : s.driver.armsAt buf with
      | none =>
        rw [hat] at harms
        simp only [harms] at hp ⊢
        exact h k hp
      | some j =>
        rw [hat] at harms
        obtain ⟨t, ht, hexp⟩ := harms
        simp only [ht] at hp ⊢
        by_cases hkj : k = j
        · subst hkj
          simp only [Function.update_self]
          exact ⟨hexp, le_refl _, parseSec_lt _⟩
        · simp only [Function.update_of_ne hkj] at hp ⊢
          exact h k hp
    | remove =>
      have hat : s.driver.armsAt buf = none := by simp [Driver.armsAt, hc]
      simp only [hc, hat] at hp ⊢
      -- what the loop does not stop is as it was
      change (Driver.stopTimer (s.driver.timers k)).timer.pending = true at hp
      change ArmedFor cfg s.now (Driver.stopTimer (s.driver.timers k)).timer (a k)
      unfold Driver.stopTimer at hp ⊢
      split_ifs at hp ⊢
      · cases hp
      · exact h k hp
    | capacity =>
      have hat : s.driver.armsAt buf = none := by simp [Driver.armsAt, hc]
      simp only [hc, hat, writeCapacity_timers] at hp ⊢
      exact h k hp
    | other =>
      have hat : s.driver.armsAt buf = none := by simp [Driver.armsAt, hc]
      simp only [hc, hat] at hp ⊢
      exact h k hp
  · have hat : s.driver.armsAt buf = none := by simp [Driver.armsAt, ha]
    simp only [if_neg ha, hat] at hp ⊢
    exact h k hp

theorem armedExact_step (s : State × Armings) (e : Event) (t : State × Armings)
    (hact : ActiveArmed s.1.driver) (h : ArmedExact cfg s) (hs : armedStep cfg s e = some t) :
    ArmedExact cfg t := by
  obtain ⟨u, hu, rfl⟩ := Option.map_eq_some_iff.mp hs
  cases e with
  | tick ticks =>
    obtain rfl := Option.some.inj hu
    intro k hp
    have hk := h k hp
    exact ⟨hk.expires, Nat.le_add_right_of_le hk.armed, hk.seconds⟩
  | write current buf =>
    obtain rfl := Option.some.inj hu
    exact armedExact_write cfg current buf s.1 s.2 h
  | fire k =>
    simp only [step] at hu
    split_ifs at hu with hx
    obtain ⟨r, hr, rfl⟩ := Option.map_eq_some_iff.mp hu
    obtain ⟨-, -, -, hoff, hother⟩ := expire_cases s.1.driver k r hact hx.1 hr
    intro j hp
    by_cases hj : j = k
    · subst hj
      rw [hoff] at hp
      cases hp
    · have hsame := hother j hj
      simp only [hsame] at hp ⊢
      exact h j hp
  | read count pos =>
    obtain rfl := Option.some.inj hu
    rw [mytimerRead_fst]
    exact h
  | procRead =>
    obtain rfl := Option.some.inj hu
    exact h

/-- The record does not change what the driver does. -/
theorem reach_of_armed (s : State) (a : Armings) (t : State × Armings)
    (h : Reach (armedStep cfg) (fun _ _ => True) (s,a) t) :
    Reach (step cfg) (fun _ _ => True) s t.1 := by
  refine reach_simulates (I := fun _ => True) Prod.fst (fun _ _ _ _ _ _ => trivial) ?_ h trivial
  intro p e q _ _ hstep
  obtain ⟨u, hu, rfl⟩ := Option.map_eq_some_iff.mp hstep
  exact reach_tail e (reach_refl _) trivial hu

theorem armedExact_reach (load : ℕ) (t : State × Armings)
    (h : Reach (armedStep cfg) (fun _ _ => True) (loaded load, fun _ => (0,0)) t) :
    ArmedExact cfg t := by
  refine reach_invariant_with (J := fun s => ActiveArmed s.1.driver) ?_ ?_ h ?_
  · intro s hs
    exact activeArmed_reach cfg load s.1 (reach_of_armed cfg _ _ s hs)
  · intro s e t hact _ hi _ hs
    exact armedExact_step cfg s e t hact hi hs
  · -- nothing is armed at load
    intro k hp
    cases hp

end Arming

theorem exactRemaining_le (cfg : Config) (now : ℕ) (a : ℕ × ℕ) (h : a.1 ≤ now) :
    exactRemaining cfg now (deadline cfg a) ≤ a.2 := by
  rw [exactRemaining_eq]
  calc
    (deadline cfg a - now)/cfg.HZ ≤ a.2*cfg.HZ/cfg.HZ := by
      apply Nat.div_le_div_right
      unfold deadline
      omega
    _ = a.2 := Nat.mul_div_cancel _ cfg.HZ_pos

/-- In every reachable state the number printed for an active slot is the exact one if and
only if the deadline has not passed, or the wrapped time behind it is zero or within one
second of a full turn of the counter. The exact number is at most the seconds last armed
with, only falls, and is zero from the deadline on. -/
theorem remaining_exact_iff (cfg : Config) (load : ℕ) (s : State) (a : Armings)
    (h : Reach (armedStep cfg) (fun _ _ => True) (loaded load, fun _ => (0,0)) (s,a))
    (k : Fin maxTimers) (hk : (s.driver.timers k).Active) :
    (ReportsExactly cfg s.now k (s.driver.timers k) (deadline cfg (a k)) ↔
      s.now ≤ deadline cfg (a k) ∨ (s.now - deadline cfg (a k))%2^32 = 0 ∨
        2^32 - cfg.HZ < (s.now - deadline cfg (a k))%2^32) ∧
    exactRemaining cfg s.now (deadline cfg (a k)) ≤ (a k).2 ∧
    (∀ later, s.now ≤ later → exactRemaining cfg later (deadline cfg (a k)) ≤
      exactRemaining cfg s.now (deadline cfg (a k))) ∧
    (deadline cfg (a k) ≤ s.now → exactRemaining cfg s.now (deadline cfg (a k)) = 0) := by
  have hact := activeArmed_reach cfg load s (reach_of_armed cfg _ _ (s,a) h)
  have harmed := armedExact_reach cfg load (s,a) h k ((hact k).1 hk)
  refine ⟨?_, exactRemaining_le cfg s.now (a k) harmed.armed, ?_, ?_⟩
  · have hz := cfg.HZ_le
    have hturn : deadline cfg (a k) < s.now + 2^32 := by
      have hsec : (a k).2 < 100000 := harmed.seconds
      have hnow : (a k).1 ≤ s.now := harmed.armed
      have hmul : (a k).2*cfg.HZ ≤ 99999*1000 := Nat.mul_le_mul (by omega) hz
      unfold deadline
      omega
    have hrem : Driver.remaining cfg s.now (s.driver.timers k) =
        (jiffies (deadline cfg (a k)) - jiffies s.now).toNat/cfg.HZ := by
      unfold Driver.remaining
      rw [harmed.expires]
    rw [reportsExactly_iff, hrem, quotient_exact_iff cfg s.now _ hturn]
  · intro later hle
    rw [exactRemaining_eq, exactRemaining_eq]
    exact Nat.div_le_div_right (by omega)
  · intro hle
    rw [exactRemaining_eq, Nat.sub_eq_zero_of_le hle, Nat.zero_div]

set_option maxRecDepth 8192 in
/-- Armed with 5 seconds shortly before the counter wraps, and read 270 ticks later. -/
theorem remaining_exact_iff_run : ∃ s a,
    Reach (armedStep sampleConfig) (fun _ _ => True) (loaded (2^32 - 10), fun _ => (0,0)) (s,a) ∧
      exactRemaining sampleConfig s.now (deadline sampleConfig (a 0)) = 2 ∧
      ReportsExactly sampleConfig s.now 0 (s.driver.timers 0) (deadline sampleConfig (a 0)) := by
  obtain ⟨t, ht, hp⟩ := exists_reach_of_free_run (armedStep sampleConfig)
    (loaded (2^32 - 10), fun _ => (0,0)) [sampleWrite 7 (by decide) "-s 5 bob", .tick 270]
    (fun t => (t.1.driver.timers 0).Active ∧ t.1.now ≤ deadline sampleConfig (t.2 0) ∧
      exactRemaining sampleConfig t.1.now (deadline sampleConfig (t.2 0)) = 2)
    (by decide +kernel)
  obtain ⟨hact, hle, htwo⟩ := of_decide_eq_true hp
  have hiff := (remaining_exact_iff sampleConfig _ t.1 t.2 ht 0 hact).1
  exact ⟨t.1, t.2, ht, htwo, hiff.mpr (Or.inl hle)⟩

set_option maxRecDepth 8192 in
/-- A timer of one second, read one tick after its deadline while its handler is still to
run. -/
theorem remaining_wraps_late : ¬ ∀ (cfg : Config) (load : ℕ) (s : State) (a : Armings),
    100 ≤ cfg.HZ → Reach (armedStep cfg) (fun _ _ => True) (loaded load, fun _ => (0,0)) (s,a) →
      ∀ k, (s.driver.timers k).Active →
        ReportsExactly cfg s.now k (s.driver.timers k) (deadline cfg (a k)) := by
  intro hall
  obtain ⟨t, ht, hp⟩ := exists_reach_of_free_run (armedStep sampleConfig)
    (loaded 0, fun _ => (0,0)) [sampleWrite 7 (by decide) "-s 1 bob", .tick 101]
    (fun t => (t.1.driver.timers 0).Active ∧
      Driver.remaining sampleConfig t.1.now (t.1.driver.timers 0) = 42949672 ∧
      exactRemaining sampleConfig t.1.now (deadline sampleConfig (t.2 0)) = 0)
    (by decide +kernel)
  obtain ⟨hact, hrem, hexact⟩ := of_decide_eq_true hp
  have hrep := (reportsExactly_iff _ _ _ _ _).mp (hall _ _ t.1 t.2 (by decide) ht 0 hact)
  rw [hrem, hexact] at hrep
  cases hrep

end DevKota.Lab3
