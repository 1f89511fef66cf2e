import DevKota.Lab4Lights

/-! The schedule of the lab4 lights: what the timer shows and when, in terms of one period. -/
namespace DevKota.Lab4
open CString Kernel Runs

/-- The phase of the cycle with the given number: four green, one yellow, one red. -/
def phaseAt (k : ℕ) : Lamps :=
  if k % 6 < 4 then ⟨false, true, false⟩
  else if k % 6 = 4 then ⟨false, false, true⟩
  else ⟨true, false, false⟩

/-- The schedule: the ticks since the last phase began, the number of the next phase, and what
is lit. -/
@[ext] structure Schedule where
  waited : ℕ
  phase : ℕ
  lamps : Lamps
  deriving DecidableEq

namespace Schedule

/-- In front of the first phase everything is dark. -/
def begun : Schedule := ⟨0, 0, ⟨false, false, false⟩⟩

def switched (lamps : Lamps) : Switch → Lamps
  | .on .RED => { lamps with red := true }
  | .on .GREEN => { lamps with green := true }
  | .on .YELLOW => { lamps with yellow := true }
  | .off => ⟨false, false, false⟩
  | .refused => lamps

/-- A phase begins at any instant from one period after the last one on. -/
def step (period : ℕ) (s : Schedule) : Event → Option Schedule
  | .tick ticks => some { s with waited := s.waited + ticks }
  | .write buf alloc => some { s with lamps := switched s.lamps (switchOf buf alloc) }
  | .fire => if period ≤ s.waited then some ⟨0, (s.phase+1) % 6, phaseAt s.phase⟩ else none

end Schedule

/-- The schedule that a state of the driver stands for. -/
def schedule (cfg : Config) (s : State) : Schedule where
  waited := s.now + cfg.HZ - s.driver.timer.timer.due
  phase := s.driver.timer.iteration.toNat
  lamps := s.driver.lamps

/-- The timer is armed for an instant at most one period ahead. -/
structure Timed (cfg : Config) (s : State) : Prop where
  handler : s.driver.timer.timer.function = some .timerCallback
  pending : s.driver.timer.timer.pending = true
  due : s.driver.timer.timer.due ≤ s.now + cfg.HZ
  phase : s.driver.timer.iteration.toNat ≤ 5

theorem phaseAt_add_mod (k n : ℕ) : phaseAt (k % 6 + n) = phaseAt (k + n) := by
  unfold phaseAt
  rw [Nat.mod_add_mod]

/-- From a phase on: this one, and then from the next. -/
theorem phases_succ (p n : ℕ) :
    (List.range (n+1)).map (fun k => phaseAt (p+k)) =
      phaseAt p :: (List.range n).map (fun k => phaseAt ((p+1) % 6 + k)) := by
  rw [List.range_succ_eq_map, List.map_cons, List.map_map, Nat.add_zero]
  congr 1
  apply List.map_congr_left
  intro k _
  rw [phaseAt_add_mod]
  show phaseAt (p + (k+1)) = _
  congr 1
  omega

section Steps
variable (cfg : Config) (s : State)

/-- One period ahead is never far enough to wrap. -/
theorem dueOf_period (now : ℕ) :
    dueOf now (jiffies now + 1 * BitVec.ofNat 32 cfg.HZ) = now + cfg.HZ := by
  have hHZ := cfg.HZ_le
  rw [show (1 : Word) * BitVec.ofNat 32 cfg.HZ = BitVec.ofNat 32 cfg.HZ from
    BitVec.one_mul _]
  apply dueOf_add
  omega

theorem phaseLamps_eq (iteration : Word) (h : iteration.toNat ≤ 5) :
    phaseLamps iteration = phaseAt iteration.toNat := by
  have hmod : iteration.toNat % 6 = iteration.toNat := Nat.mod_eq_of_lt (by omega)
  unfold phaseLamps phaseAt
  rw [hmod]
  apply if_congr _ rfl rfl
  omega

theorem nextIteration_toNat (iteration : Word) (h : iteration.toNat ≤ 5) :
    (nextIteration iteration).toNat = (iteration.toNat + 1) % 6 := by
  unfold nextIteration
  split_ifs with h4
  · have h1 : (1 : Word).toNat = 1 := rfl
    rw [BitVec.toNat_add, h1]
    omega
  · -- the red phase is the last one
    have h5 : iteration.toNat = 5 := by omega
    rw [h5]
    decide

theorem gpioSetValue_lamps (d : Driver) (pin : Pin) :
    (d.gpioSetValue pin true).lamps = Schedule.switched d.lamps (.on pin) ∧
      (d.gpioSetValue pin true).timer = d.timer := by
  cases pin <;> exact ⟨rfl, rfl⟩

/-- A write switches lamps and leaves the timer alone. -/
theorem myWrite_switched (d : Driver) (buf : UserBuf) (alloc : Bool) :
    (d.myWrite buf alloc).1.lamps = Schedule.switched d.lamps (switchOf buf alloc) ∧
      (d.myWrite buf alloc).1.timer = d.timer := by
  rw [myWrite_fst]
  cases switchOf buf alloc with
  | on pin => exact gpioSetValue_lamps d pin
  | off => exact ⟨rfl, rfl⟩
  | refused => exact ⟨rfl, rfl⟩

/-- The timer fires exactly when a period is over, and the next one begins then. -/
theorem fire_eq (h : Timed cfg s) :
    step cfg s .fire =
      if cfg.HZ ≤ (schedule cfg s).waited then
        some { s with driver :=
          { lamps := phaseAt s.driver.timer.iteration.toNat
            timer := { s.driver.timer with
              iteration := nextIteration s.driver.timer.iteration
              timer := s.driver.timer.timer.delTimer.modTimer s.now
                (jiffies s.now + 1 * BitVec.ofNat 32 cfg.HZ) } } }
      else none := by
  have hdue := h.due
  have hexpired : s.driver.timer.timer.Expired s.now ↔ cfg.HZ ≤ (schedule cfg s).waited := by
    simp only [TimerList.Expired, h.pending, true_and, schedule]
    omega
  simp only [step, hexpired]
  rw [expire_eq cfg s.driver s.now h.handler, phaseLamps_eq _ h.phase, Option.map_some]

theorem timed_step (e : Event) (t : State) (h : Timed cfg s) (hs : step cfg s e = some t) :
    Timed cfg t := by
  have hdue := h.due
  cases e with
  | tick ticks =>
    rw [← Option.some.inj hs]
    refine ⟨h.handler, h.pending, ?_, h.phase⟩
    show s.driver.timer.timer.due ≤ s.now + ticks + cfg.HZ
    omega
  | write buf alloc =>
    -- a write leaves the timer alone
    have htimer := (myWrite_switched s.driver buf alloc).2
    rw [← Option.some.inj hs]
    constructor <;> simp only [htimer]
    · exact h.handler
    · exact h.pending
    · exact hdue
    · exact h.phase
  | fire =>
    rw [fire_eq cfg s h] at hs
    split_ifs at hs
    rw [← Option.some.inj hs]
    refine ⟨h.handler, rfl, ?_, nextIteration_le _⟩
    show dueOf _ _ ≤ _
    rw [dueOf_period]

/-- Each step of the driver is the step of the schedule. -/
theorem step_schedule (e : Event) (h : Timed cfg s) :
    (step cfg s e).map (schedule cfg) = (schedule cfg s).step cfg.HZ e := by
  have hdue := h.due
  cases e with
  | tick ticks =>
    -- what is waited grows as the clock does
    simp only [step, Schedule.step, schedule, Option.map_some, Option.some.injEq,
      Schedule.mk.injEq, and_true]
    omega
  | write buf alloc =>
    obtain ⟨hlamps, htimer⟩ := myWrite_switched s.driver buf alloc
    simp only [step, Schedule.step, schedule, Option.map_some, hlamps, htimer]
  | fire =>
    rw [fire_eq cfg s h, Schedule.step]
    split_ifs with hw
    · rw [Option.map_some]
      congr 1
      apply Schedule.ext
      · show s.now + cfg.HZ - dueOf _ _ = 0
        rw [dueOf_period, Nat.sub_self]
      · exact nextIteration_toNat _ h.phase
      · rfl
    · rfl

end Steps

/-- A successful load has dark lamps and the timer armed for one period later. -/
theorem loaded_eq (cfg : Config) (s : State) (h : Loaded cfg s) :
    s.driver = Driver.trafficMode cfg s.now NORMAL ⟨⟨false, false, false⟩, TimerList.zeroed, 0, 0⟩ := by
  obtain ⟨found, granted, hinit⟩ := h
  have herr : (-EINVAL : ℤ) ≠ 0 := by decide
  unfold Driver.mytrafficInit at hinit
  -- each refused pin ends the load with an error
  split_ifs at hinit with h1 h2 h3
  · exact (congrArg Prod.fst hinit).symm
  · exact absurd (congrArg Prod.snd hinit) herr
  · exact absurd (congrArg Prod.snd hinit) herr
  · exact absurd (congrArg Prod.snd hinit) herr

theorem loaded_timed (cfg : Config) (s : State) (h : Loaded cfg s) :
    Timed cfg s ∧ schedule cfg s = Schedule.begun := by
  have hdriver := loaded_eq cfg s h
  have hdue : s.driver.timer.timer.due = s.now + cfg.HZ := by
    rw [hdriver]
    exact dueOf_period cfg s.now
  obtain ⟨hlamps, hphase, hfun, hpend⟩ := loaded_driver cfg s h
  refine ⟨⟨hfun, hpend, hdue.le, ?_⟩, ?_⟩
  · rw [hphase]
    decide
  · apply Schedule.ext
    · show s.now + cfg.HZ - s.driver.timer.timer.due = 0
      rw [hdue, Nat.sub_self]
    · show s.driver.timer.iteration.toNat = 0
      rw [hphase]
      decide
    · exact hlamps

theorem run_schedule (cfg : Config) (s : State) (h : Timed cfg s) (es : List Event) :
    (run (step cfg) (fun _ _ => true) s es).map (schedule cfg) =
      run (Schedule.step cfg.HZ) (fun _ _ => true) (schedule cfg s) es :=
  run_simulates (schedule cfg) (fun s e t hi hst => timed_step cfg s e t hi hst)
    (fun s e hi => step_schedule cfg s e hi) h es

/-- From a successful load on the driver is the schedule: the same sequences of ticks, writes
and firings are possible, and they lead to the same lamps, phase and time waited. -/
theorem runs_are_schedule (cfg : Config) (s : State) (hs : Loaded cfg s) (es : List Event) :
    (run (step cfg) (fun _ _ => true) s es).map (schedule cfg) =
      run (Schedule.step cfg.HZ) (fun _ _ => true) Schedule.begun es := by
  obtain ⟨htimed, hbegun⟩ := loaded_timed cfg s hs
  rw [← hbegun]
  exact run_schedule cfg s htimed es

def sampleCycle : List Event :=
  [.tick 300, .fire, sampleWrite "0", .tick 310, .fire, .tick 300, .fire, sampleWrite "off",
    .tick 320, .fire, .tick 300, .fire, .tick 300, .fire]

theorem sampleCycle_runs :
    (run (step sampleConfig) (fun _ _ => true) sampleLoaded sampleCycle).isSome = true := by
  decide

/-- After a whole cycle with writes in between, red is lit. -/
theorem runs_are_schedule_run :
    (run (step sampleConfig) (fun _ _ => true) sampleLoaded sampleCycle).map
        (schedule sampleConfig) = some ⟨0, 0, ⟨true, false, false⟩⟩ := by
  rw [runs_are_schedule sampleConfig sampleLoaded sampleLoaded_loaded]
  decide

section Phases

/-- How often the timer fires. -/
def firings : List Event → ℕ
  | [] => 0
  | .fire :: es => firings es + 1
  | _ :: es => firings es

/-- The ticks that pass. -/
def ticksOf : List Event → ℕ
  | [] => 0
  | .tick ticks :: es => ticks + ticksOf es
  | _ :: es => ticksOf es

def shownBy (t : State) : Event → List Lamps
  | .fire => [t.driver.lamps]
  | _ => []

/-- The lamps that each firing leaves. -/
def phasesShown (cfg : Config) : State → List Event → List Lamps
  | _, [] => []
  | s, e :: es => (step cfg s e).elim [] fun t => shownBy t e ++ phasesShown cfg t es

variable (cfg : Config) (s t : State)

theorem phases_from (es : List Event) (hi : Timed cfg s)
    (h : run (step cfg) (fun _ _ => true) s es = some t) :
    phasesShown cfg s es = (List.range (firings es)).map
        (fun k => phaseAt (s.driver.timer.iteration.toNat + k)) ∧
      t.now = s.now + ticksOf es ∧
      cfg.HZ * firings es + (schedule cfg t).waited ≤ (schedule cfg s).waited + ticksOf es := by
  -- the phase and the ticks waited are those of the schedule
  induction es generalizing s with
  | nil =>
    obtain rfl := Option.some.inj h
    exact ⟨rfl, rfl, by simp [firings, ticksOf]⟩
  | cons e es ih =>
    obtain ⟨-, u, hu, hrest⟩ := run_cons h
    obtain ⟨hshown, hnow, hwait⟩ := ih u (timed_step cfg s e u hi hu) hrest
    have hsched := step_schedule cfg s e hi
    rw [hu, Option.map_some] at hsched
    have hphases : phasesShown cfg s (e :: es) = shownBy u e ++ phasesShown cfg u es := by
      rw [phasesShown, hu, Option.elim_some]
    rw [hphases, hshown]
    cases e with
    | tick ticks =>
      have hw := congrArg Schedule.waited (Option.some.inj hsched)
      have hu := Option.some.inj hu
      subst hu
      refine ⟨rfl, ?_, ?_⟩
      · rw [hnow, ticksOf, Nat.add_assoc]
      · simp only [firings, ticksOf] at hw ⊢
        omega
    | write buf alloc =>
      rw [Schedule.step] at hsched
      have hafter := Option.some.inj hsched
      have hw : (schedule cfg u).waited = (schedule cfg s).waited := by rw [hafter]
      have hphase : (schedule cfg u).phase = (schedule cfg s).phase := by rw [hafter]
      have hclock : u.now = s.now := by rw [← Option.some.inj hu]
      rw [show u.driver.timer.iteration.toNat = _ from hphase, hnow, hclock]
      refine ⟨rfl, rfl, ?_⟩
      rw [← hw]
      exact hwait
    | fire =>
      -- the callback waits again from zero
      rw [Schedule.step] at hsched
      split_ifs at hsched with hdue
      have hafter := Option.some.inj hsched
      have hw : (schedule cfg u).waited = 0 := congrArg Schedule.waited hafter
      have hphase : u.driver.timer.iteration.toNat = (s.driver.timer.iteration.toNat + 1) % 6 :=
        congrArg Schedule.phase hafter
      have hlamps : u.driver.lamps = phaseAt s.driver.timer.iteration.toNat :=
        congrArg Schedule.lamps hafter
      have hclock : u.now = s.now := by
        rw [fire_eq cfg s hi, if_pos hdue] at hu
        rw [← Option.some.inj hu]
      refine ⟨?_, ?_, ?_⟩
      · -- the phase of this firing, and then those of the rest
        show [u.driver.lamps] ++ _ = _
        rw [hlamps, hphase, firings, phases_succ, List.singleton_append]
      · rw [hnow, hclock]
        rfl
      · simp only [firings, ticksOf, Nat.mul_add, Nat.mul_one]
        omega

end Phases

/-- In every run from a successful load, whatever is written, the firings show the phases of the
cycle one after the other, and every one of them comes at least a period after the one before. -/
theorem phases_in_order (cfg : Config) (s t : State) (es : List Event) (hs : Loaded cfg s)
    (h : run (step cfg) (fun _ _ => true) s es = some t) :
    phasesShown cfg s es = (List.range (firings es)).map phaseAt ∧
      cfg.HZ * firings es ≤ t.now - s.now := by
  obtain ⟨htimed, hbegun⟩ := loaded_timed cfg s hs
  obtain ⟨hshown, hnow, hwait⟩ := phases_from cfg s t es htimed h
  have hphase : s.driver.timer.iteration.toNat = 0 := congrArg Schedule.phase hbegun
  have hwaited : (schedule cfg s).waited = 0 := congrArg Schedule.waited hbegun
  constructor
  · rw [hshown, hphase]
    simp only [Nat.zero_add]
  · omega

theorem phases_in_order_run : phasesShown sampleConfig sampleLoaded sampleCycle =
    [⟨false, true, false⟩, ⟨false, true, false⟩, ⟨false, true, false⟩, ⟨false, true, false⟩,
      ⟨false, false, true⟩, ⟨true, false, false⟩] := by
  obtain ⟨t, ht⟩ := Option.isSome_iff_exists.mp sampleCycle_runs
  exact (phases_in_order sampleConfig sampleLoaded t sampleCycle sampleLoaded_loaded ht).1

section Spacing

def waitAfter (waited : ℕ) : Event → ℕ
  | .tick ticks => waited + ticks
  | .write _ _ => waited
  | .fire => 0

/-- The ticks since the last firing, or since the load. -/
def sinceFiring (es : List Event) : ℕ := es.foldl waitAfter 0

/-- In front of every firing a period has passed since the one before, or since the load. -/
def Spaced (period : ℕ) (es : List Event) : Prop :=
  ∀ past rest, es = past ++ .fire :: rest → period ≤ sinceFiring past

theorem sinceFiring_append (es : List Event) (e : Event) :
    sinceFiring (es ++ [e]) = waitAfter (sinceFiring es) e := by
  simp only [sinceFiring, List.foldl_append, List.foldl_cons, List.foldl_nil]

theorem spaced_append (period : ℕ) (es : List Event) (e : Event) :
    Spaced period (es ++ [e]) ↔ Spaced period es ∧ (e = .fire → period ≤ sinceFiring es) := by
  constructor
  · intro h
    refine ⟨fun past rest hsplit => ?_, fun he => ?_⟩
    · apply h past (rest ++ [e])
      rw [hsplit, List.append_assoc, List.cons_append]
    · exact h es [] (by rw [he])
  · intro h past rest hsplit
    -- the firing is the last event, or an earlier one
    rcases List.eq_nil_or_concat rest with hnil | ⟨init, last, hrest⟩
    · rw [hnil] at hsplit
      obtain ⟨hes, he⟩ := List.append_inj' hsplit rfl
      rw [← hes]
      exact h.2 (List.singleton_injective he)
    · rw [hrest, List.concat_eq_append, ← List.cons_append, ← List.append_assoc] at hsplit
      exact h.1 past init (List.append_inj' hsplit rfl).1

/-- Only a firing needs something: a period waited. -/
theorem schedule_step_iff (period : ℕ) (u : Schedule) (e : Event) :
    (u.step period e).isSome = true ↔ (e = .fire → period ≤ u.waited) := by
  cases e with
  | tick ticks => simp [Schedule.step]
  | write buf alloc => simp [Schedule.step]
  | fire => simp [Schedule.step]

theorem schedule_step_waited (period : ℕ) (u t : Schedule) (e : Event)
    (h : u.step period e = some t) : t.waited = waitAfter u.waited e := by
  unfold Schedule.step at h
  cases e with
  | tick ticks => rw [← Option.some.inj h, waitAfter]
  | write buf alloc => rw [← Option.some.inj h, waitAfter]
  | fire =>
    simp only at h
    split_ifs at h
    rw [← Option.some.inj h, waitAfter]

theorem schedule_run (period : ℕ) (es : List Event) :
    ((run (Schedule.step period) (fun _ _ => true) Schedule.begun es).isSome = true ↔
        Spaced period es) ∧
      ∀ t, run (Schedule.step period) (fun _ _ => true) Schedule.begun es = some t →
        t.waited = sinceFiring es := by
  induction es using List.reverseRecOn with
  | nil =>
    refine ⟨⟨fun _ past rest hsplit => ?_, fun _ => rfl⟩, fun t ht => ?_⟩
    · simp at hsplit
    · rw [← Option.some.inj ht]
      rfl
  | append_singleton es e ih =>
    obtain ⟨hspaced, hwaited⟩ := ih
    rw [run_concat, spaced_append, ← hspaced, sinceFiring_append]
    cases hrun : run (Schedule.step period) (fun _ _ => true) Schedule.begun es with
    | none => simp
    | some u =>
      rw [← hwaited u hrun]
      simp only [Option.bind_some, Option.isSome_some, true_and]
      exact ⟨schedule_step_iff period u e, fun t => schedule_step_waited period u t e⟩

end Spacing

/-- Ticks, writes and firings are possible in exactly those orders in which a period passes in
front of every firing: no write delays the timer or makes it fire early, and it never stops. -/
theorem runs_iff_spaced (cfg : Config) (s : State) (es : List Event) (hs : Loaded cfg s) :
    (run (step cfg) (fun _ _ => true) s es).isSome = true ↔ Spaced cfg.HZ es := by
  obtain ⟨htimed, hbegun⟩ := loaded_timed cfg s hs
  rw [← (schedule_run cfg.HZ es).1, ← hbegun, ← run_schedule cfg s htimed es, Option.isSome_map]

/-- One tick too early the first firing is not possible. -/
theorem runs_iff_spaced_run : (run (step sampleConfig) (fun _ _ => true) sampleLoaded
    [.tick 200, sampleWrite "1", .tick 99, .fire]).isSome = false := by
  rw [Bool.eq_false_iff]
  intro hsome
  have hspaced := (runs_iff_spaced sampleConfig sampleLoaded _ sampleLoaded_loaded).mp hsome
  exact absurd (hspaced [.tick 200, sampleWrite "1", .tick 99] [] rfl) (by decide)

end DevKota.Lab4
