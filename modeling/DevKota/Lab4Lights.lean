import DevKota.Lab4Driver
import DevKota.Histories

/-! Which lamps of the lab4 driver are lit together, and in which order. -/
namespace DevKota.Lab4
open CString Kernel Runs Histories

/-- No two lamps are lit. -/
def Lamps.AtMostOne (l : Lamps) : Prop :=
  ¬ (l.red = true ∧ l.green = true) ∧ ¬ (l.red = true ∧ l.yellow = true) ∧
    ¬ (l.green = true ∧ l.yellow = true)

instance (l : Lamps) : Decidable l.AtMostOne := inferInstanceAs (Decidable (_ ∧ _ ∧ _))

/-- At most one lamp at any time, and no red after a green without a yellow in between. -/
def Safe (past : List Lamps) : Prop :=
  (∀ l ∈ past, l.AtMostOne) ∧ Separated Lamps.green Lamps.yellow Lamps.red past

/-- Green was lit, and yellow has not been lit after it. -/
def greenSince (past : List Lamps) : Bool := since Lamps.green Lamps.yellow past

/-- The driver with the lamps it has shown. -/
abbrev Recorded := State × List Lamps

def recordedStep (cfg : Config) : Recorded → Event → Option Recorded :=
  recorded (step cfg) fun s => s.driver.lamps

/-- What a write does to the outputs. -/
inductive Switch
  | on (pin : Pin)
  | off
  | refused

def switchOf (buf : UserBuf) (alloc : Bool) : Switch :=
  if ¬ alloc ∨ ¬ buf.mapped then .refused
  else if (buf.bytes ++ [0]).head? = some 48 then .on .RED
  else if (buf.bytes ++ [0]).head? = some 49 then .on .GREEN
  else if (buf.bytes ++ [0]).head? = some 50 then .on .YELLOW
  else .off

/-- A lamp may be switched on by hand when no other is lit; red only when no green waits for
its yellow, green only when the timer's next phase is not the red one. -/
def mayLight (s : Recorded) : Pin → Prop
  | .RED => s.1.driver.lamps.green = false ∧ s.1.driver.lamps.yellow = false ∧
      greenSince s.2 = false
  | .GREEN => s.1.driver.lamps.red = false ∧ s.1.driver.lamps.yellow = false ∧
      s.1.driver.timer.iteration.toNat ≤ 4
  | .YELLOW => s.1.driver.lamps.red = false ∧ s.1.driver.lamps.green = false

/-- The condition on one step; only writes are restricted. -/
def Allowed (s : Recorded) : Event → Prop
  | .write buf alloc =>
    match switchOf buf alloc with
    | .on pin => mayLight s pin
    | _ => True
  | _ => True

instance (s : Recorded) (pin : Pin) : Decidable (mayLight s pin) :=
  match pin with
  | .RED => inferInstanceAs (Decidable (_ ∧ _ ∧ _))
  | .GREEN => inferInstanceAs (Decidable (_ ∧ _ ∧ _))
  | .YELLOW => inferInstanceAs (Decidable (_ ∧ _))

instance (s : Recorded) (e : Event) : Decidable (Allowed s e) :=
  match e with
  | .write buf alloc =>
    match h : switchOf buf alloc with
    | .on pin => decidable_of_iff (mayLight s pin) (by simp only [Allowed, h])
    | .off => .isTrue (by simp only [Allowed, h])
    | .refused => .isTrue (by simp only [Allowed, h])
  | .tick _ => .isTrue trivial
  | .fire => .isTrue trivial

def allowedCheck (s : Recorded) (e : Event) : Bool := Allowed s e

theorem allowed_of_check (s : Recorded) (e : Event) (h : allowedCheck s e = true) : Allowed s e :=
  of_decide_eq_true h

/-- Steps of the clock and of the timer. -/
def NoWrite (_ : Recorded) : Event → Prop
  | .write _ _ => False
  | _ => True

section Operations
variable (cfg : Config) (d : Driver)

theorem myWrite_fst (buf : UserBuf) (alloc : Bool) :
    (d.myWrite buf alloc).1 =
      match switchOf buf alloc with
      | .on pin => d.gpioSetValue pin true
      | .off => { d with lamps := ⟨false, false, false⟩ }
      | .refused => d := by
  unfold Driver.myWrite switchOf
  cases alloc with
  | false => rfl
  | true =>
    by_cases hm : buf.mapped = true
    · simp only [hm, not_true_eq_false, if_false, or_self]
      split_ifs <;> rfl
    · simp [hm]

/-- The phase that the timer shows next. -/
def phaseLamps (iteration : Word) : Lamps :=
  if iteration.toNat ≤ 3 then ⟨false, true, false⟩
  else if iteration.toNat = 4 then ⟨false, false, true⟩
  else ⟨true, false, false⟩

def nextIteration (iteration : Word) : Word := if iteration.toNat ≤ 4 then iteration + 1 else 0

theorem cycle_eq : d.cycle =
    { lamps := phaseLamps d.timer.iteration
      timer := { d.timer with iteration := nextIteration d.timer.iteration } } := by
  unfold Driver.cycle phaseLamps nextIteration
  -- up to 4 the counter goes on; 4 is told from the smaller values by its lamp
  by_cases h3 : d.timer.iteration.toNat ≤ 3
  · have h4 : d.timer.iteration.toNat ≤ 4 := by omega
    simp [h3, h4, Driver.gpioSetValue]
  · by_cases h4 : d.timer.iteration.toNat = 4
    · simp [h4, Driver.gpioSetValue]
    · have h4' : ¬ d.timer.iteration.toNat ≤ 4 := by omega
      simp [h3, h4, h4', Driver.gpioSetValue]

/-- The timer's callback, as the kernel runs it: the next phase, and armed again. -/
theorem expire_eq (now : ℕ) (hfun : d.timer.timer.function = some .timerCallback) :
    d.expire cfg now = some
      { lamps := phaseLamps d.timer.iteration
        timer := { d.timer with
          iteration := nextIteration d.timer.iteration
          timer := d.timer.timer.delTimer.modTimer now
            (jiffies now + 1 * BitVec.ofNat 32 cfg.HZ) } } := by
  unfold Driver.expire
  rw [hfun]
  simp only [Driver.timerCallback, ite_self, cycle_eq, Driver.rearm]

theorem phaseLamps_atMostOne (iteration : Word) : (phaseLamps iteration).AtMostOne := by
  unfold phaseLamps
  split_ifs <;> decide

theorem phaseLamps_red (iteration : Word) (h : (phaseLamps iteration).red = true) :
    4 < iteration.toNat := by
  unfold phaseLamps at h
  split_ifs at h with h3 h4
  omega

theorem nextIteration_le (iteration : Word) : (nextIteration iteration).toNat ≤ 5 := by
  unfold nextIteration
  split_ifs with h
  · have h1 : (1 : Word).toNat = 1 := rfl
    rw [BitVec.toNat_add, h1]
    omega
  · decide

/-- After a green phase the red one is at least two ticks away. -/
theorem nextIteration_green (iteration : Word) (h : (phaseLamps iteration).green = true) :
    (nextIteration iteration).toNat ≤ 4 := by
  unfold phaseLamps at h
  split_ifs at h with h3
  have h1 : (1 : Word).toNat = 1 := rfl
  rw [nextIteration, if_pos (by omega), BitVec.toNat_add, h1]
  omega

theorem nextIteration_dark (iteration : Word) (hy : (phaseLamps iteration).yellow = false)
    (hi : iteration.toNat ≤ 5) : (nextIteration iteration).toNat ≤ 4 := by
  unfold phaseLamps at hy
  split_ifs at hy with h3 h4
  · exact nextIteration_green iteration (by simp [phaseLamps, h3])
  · rw [nextIteration, if_neg (by omega)]
    decide

end Operations

/-- What the driver and its history keep as long as writes are allowed ones. -/
structure Inv (s : Recorded) : Prop where
  safe : Safe s.2
  one : s.1.driver.lamps.AtMostOne
  green : s.1.driver.lamps.green = true → greenSince s.2 = true
  red : s.1.driver.lamps.red = true → greenSince s.2 = false
  phase : s.1.driver.timer.iteration.toNat ≤ 5
  order : greenSince s.2 = true → s.1.driver.timer.iteration.toNat ≤ 4
  handler : s.1.driver.timer.timer.function = some .timerCallback
  pending : s.1.driver.timer.timer.pending = true

theorem greenSince_append (past : List Lamps) (l : Lamps) :
    greenSince (past ++ [l]) = (l.green || (greenSince past && !l.yellow)) :=
  since_append _ _ past l

/-- One more entry of the history. -/
theorem inv_append (s : Recorded) (t : State) (h : Inv s) (hone : t.driver.lamps.AtMostOne)
    (hred : t.driver.lamps.red = true → greenSince s.2 = false)
    (hphase : t.driver.timer.iteration.toNat ≤ 5)
    (horder : greenSince (s.2 ++ [t.driver.lamps]) = true → t.driver.timer.iteration.toNat ≤ 4)
    (hfun : t.driver.timer.timer.function = some .timerCallback)
    (hpend : t.driver.timer.timer.pending = true) : Inv (t, s.2 ++ [t.driver.lamps]) where
  safe := by
    refine ⟨?_, (separated_append _ _ _ _ _).mpr ⟨h.safe.2, hred⟩⟩
    intro l hl
    rcases List.mem_append.mp hl with hl | hl
    · exact h.safe.1 l hl
    · rw [List.mem_singleton.mp hl]
      exact hone
  one := hone
  green hg := by
    rw [greenSince_append, show t.driver.lamps.green = true from hg, Bool.true_or]
  red hr := by
    have hg : t.driver.lamps.green = false := by
      by_contra hne
      exact hone.1 ⟨hr, by simpa using hne⟩
    simp [greenSince_append, hred hr, hg]
  phase := hphase
  order := horder
  handler := hfun
  pending := hpend

/-- A load that succeeds was granted all three pins; it switches them off and arms the timer. -/
theorem loaded_driver (cfg : Config) (s : State) (h : Loaded cfg s) :
    s.driver.lamps = ⟨false, false, false⟩ ∧ s.driver.timer.iteration = 0 ∧
      s.driver.timer.timer.function = some .timerCallback ∧
      s.driver.timer.timer.pending = true := by
  obtain ⟨found, granted, hinit⟩ := h
  have hd : s.driver = (Driver.mytrafficInit cfg s.now found granted).1 := by rw [hinit]
  have hr : (Driver.mytrafficInit cfg s.now found granted).2 = 0 := by rw [hinit]
  have herr : (-EINVAL : ℤ) ≠ 0 := by decide
  unfold Driver.mytrafficInit at hd hr
  by_cases h1 : granted .RED = true
  · by_cases h2 : granted .YELLOW = true
    · by_cases h3 : granted .GREEN = true
      · simp only [h1, h2, h3, not_true_eq_false, if_false] at hd
        rw [hd]
        exact ⟨rfl, rfl, rfl, rfl⟩
      · simp [h1, h2, h3, herr] at hr
    · simp [h1, h2, herr] at hr
  · simp [h1, herr] at hr

theorem inv_loaded (cfg : Config) (s : State) (h : Loaded cfg s) : Inv (s, [s.driver.lamps]) := by
  obtain ⟨hl, hi, hfun, hpend⟩ := loaded_driver cfg s h
  rw [hl]
  have hsep := (separated_append Lamps.green Lamps.yellow Lamps.red [] ⟨false, false, false⟩).mpr
    ⟨fun i j a b _ ha => by simp at ha, fun _ => rfl⟩
  refine ⟨⟨?_, hsep⟩, ?_, ?_, ?_, ?_, fun hs => ?_, hfun, hpend⟩
  · intro l hm
    rw [List.mem_singleton.mp hm]
    decide
  · rw [hl]
    decide
  · rw [hl]
    exact fun hg => hg
  · rw [hl]
    exact fun _ => rfl
  · rw [hi]
    decide
  · -- nothing was green yet
    cases hs

/-- The same outputs seen once more. -/
theorem inv_repeat (s : Recorded) (t : State) (h : Inv s) (hd : t.driver = s.1.driver) :
    Inv (t, s.2 ++ [t.driver.lamps]) := by
  refine inv_append s t h ?_ ?_ ?_ ?_ ?_ ?_ <;> rw [hd]
  · exact h.one
  · exact h.red
  · exact h.phase
  · intro hs
    rw [greenSince_append, Bool.or_eq_true, Bool.and_eq_true] at hs
    rcases hs with hg | hs
    · exact h.order (h.green hg)
    · exact h.order hs.1
  · exact h.handler
  · exact h.pending

/-- A lamp switched on by a write. -/
theorem inv_on (s : Recorded) (h : Inv s) (pin : Pin) (hp : mayLight s pin) (t : State)
    (hd : t.driver = s.1.driver.gpioSetValue pin true) : Inv (t, s.2 ++ [t.driver.lamps]) := by
  cases pin with
  | RED =>
    obtain ⟨hg, hy, hs⟩ := hp
    refine inv_append s t h ?_ (fun _ => hs) ?_ ?_ ?_ ?_ <;> rw [hd]
    · simp [Driver.gpioSetValue, Lamps.AtMostOne, hg, hy]
    · exact h.phase
    · simp [greenSince_append, Driver.gpioSetValue, hg, hs]
    · exact h.handler
    · exact h.pending
  | GREEN =>
    obtain ⟨hr, hy, hi⟩ := hp
    refine inv_append s t h ?_ ?_ ?_ (fun _ => ?_) ?_ ?_ <;> rw [hd]
    · simp [Driver.gpioSetValue, Lamps.AtMostOne, hr, hy]
    · simp [Driver.gpioSetValue, hr]
    · exact h.phase
    · exact hi
    · exact h.handler
    · exact h.pending
  | YELLOW =>
    obtain ⟨hr, hg⟩ := hp
    refine inv_append s t h ?_ ?_ ?_ ?_ ?_ ?_ <;> rw [hd]
    · simp [Driver.gpioSetValue, Lamps.AtMostOne, hr, hg]
    · simp [Driver.gpioSetValue, hr]
    · exact h.phase
    · simp [greenSince_append, Driver.gpioSetValue, hg]
    · exact h.handler
    · exact h.pending

theorem inv_off (s : Recorded) (h : Inv s) (t : State)
    (hd : t.driver = { s.1.driver with lamps := ⟨false, false, false⟩ }) :
    Inv (t, s.2 ++ [t.driver.lamps]) := by
  refine inv_append s t h ?_ ?_ ?_ ?_ ?_ ?_ <;> rw [hd]
  · exact (by decide : Lamps.AtMostOne ⟨false, false, false⟩)
  · intro hr
    cases hr
  · exact h.phase
  · intro hs
    rw [greenSince_append, Bool.false_or, Bool.not_false, Bool.and_true] at hs
    exact h.order hs
  · exact h.handler
  · exact h.pending

theorem inv_fire (cfg : Config) (s : Recorded) (h : Inv s) (now : ℕ) (t : State)
    (hd : s.1.driver.expire cfg now = some t.driver) : Inv (t, s.2 ++ [t.driver.lamps]) := by
  rw [expire_eq cfg _ now h.handler] at hd
  have hd := (Option.some.inj hd).symm
  refine inv_append s t h ?_ ?_ ?_ ?_ ?_ ?_ <;> rw [hd]
  · exact phaseLamps_atMostOne _
  · intro hr
    have hlt := phaseLamps_red _ hr
    -- a green that waits for its yellow keeps the counter below the red phase
    by_contra hs
    have := h.order (by simpa using hs)
    omega
  · exact nextIteration_le _
  · intro hs
    rw [greenSince_append, Bool.or_eq_true, Bool.and_eq_true, Bool.not_eq_true'] at hs
    rcases hs with hg | hs
    · exact nextIteration_green _ hg
    · exact nextIteration_dark _ hs.2 h.phase
  · exact h.handler
  · rfl

theorem inv_step (cfg : Config) (s : Recorded) (e : Event) (t : Recorded) (h : Inv s)
    (he : Allowed s e) (hs : recordedStep cfg s e = some t) : Inv t := by
  obtain ⟨u, hu, rfl⟩ := Option.map_eq_some_iff.mp hs
  cases e with
  | tick ticks =>
    obtain rfl := Option.some.inj hu
    exact inv_repeat s _ h rfl
  | write buf alloc =>
    obtain rfl := Option.some.inj hu
    have hw := myWrite_fst s.1.driver buf alloc
    simp only [Allowed] at he
    cases hsw : switchOf buf alloc with
    | on pin =>
      rw [hsw] at he hw
      exact inv_on s h pin he _ hw
    | off =>
      rw [hsw] at hw
      exact inv_off s h _ hw
    | refused =>
      rw [hsw] at hw
      exact inv_repeat s _ h hw
  | fire =>
    simp only [step] at hu
    split_ifs at hu
    obtain ⟨d, hd, rfl⟩ := Option.map_eq_some_iff.mp hu
    exact inv_fire cfg s h s.1.now _ hd

theorem inv_reach (cfg : Config) (s : State) (t : Recorded) (hs : Loaded cfg s)
    (h : Reach (recordedStep cfg) Allowed (s, [s.driver.lamps]) t) : Inv t :=
  reach_invariant (fun s e t hi he hst => inv_step cfg s e t hi he hst) h (inv_loaded cfg s hs)

/-- In every run from a successful load whose writes are allowed ones, at most one lamp is
lit in every state, and red never follows green without yellow in between. -/
theorem lamps_safe_of_allowed (cfg : Config) (s : State) (t : Recorded) (hs : Loaded cfg s)
    (h : Reach (recordedStep cfg) Allowed (s, [s.driver.lamps]) t) :
    t.1.driver.lamps.AtMostOne ∧ Safe t.2 := by
  have hinv := inv_reach cfg s t hs h
  exact ⟨hinv.one, hinv.safe⟩

def sampleConfig : Config := ⟨300, by decide, by decide⟩

/-- A load at tick 0 that finds all lamps lit. -/
def sampleLoaded : State :=
  ⟨0, (Driver.mytrafficInit sampleConfig 0 ⟨true, true, true⟩ fun _ => true).1⟩

theorem sampleLoaded_loaded : Loaded sampleConfig sampleLoaded :=
  ⟨⟨true, true, true⟩, fun _ => true, rfl⟩

def sampleWrite (text : String) : Event := .write ⟨ascii text, true⟩ true

theorem lamps_safe_of_allowed_run : ∃ t, Reach (recordedStep sampleConfig) Allowed
    (sampleLoaded, [sampleLoaded.driver.lamps]) t ∧ t.2.length = 6 ∧
      t.1.driver.lamps.AtMostOne ∧ Safe t.2 := by
  obtain ⟨t, ht, hp⟩ := exists_reach_of_run (recordedStep sampleConfig)
    (sampleLoaded, [sampleLoaded.driver.lamps]) allowed_of_check
    [sampleWrite "2", .tick 300, .fire, sampleWrite "off", sampleWrite "2"]
    (fun t => t.2.length = 6) (by decide)
  exact ⟨t, ht, of_decide_eq_true hp, lamps_safe_of_allowed _ _ t sampleLoaded_loaded ht⟩

/-- Two writes light red and green together. -/
theorem lamps_lit_together : ¬ ∀ (cfg : Config) (s : State) (t : Recorded), Loaded cfg s →
    Reach (recordedStep cfg) (fun _ _ => True) (s, [s.driver.lamps]) t →
      t.1.driver.lamps.AtMostOne ∧ Safe t.2 := by
  intro hall
  obtain ⟨t, ht, hp⟩ := exists_reach_of_free_run (recordedStep sampleConfig)
    (sampleLoaded, [sampleLoaded.driver.lamps]) [sampleWrite "0", sampleWrite "1"]
    (fun t => t.1.driver.lamps = ⟨true, true, false⟩) (by decide)
  have hone := (hall _ _ t sampleLoaded_loaded ht).1
  rw [show t.1.driver.lamps = ⟨true, true, false⟩ from of_decide_eq_true hp] at hone
  exact absurd hone (by decide)

section Necessity

theorem not_safe_of_two (past : List Lamps) (l : Lamps) (h : ¬ l.AtMostOne) :
    ¬ Safe (past ++ [l]) := fun hs => h (hs.1 l (by simp))

theorem not_safe_of_red (past : List Lamps) (l : Lamps) (hr : l.red = true)
    (hs : greenSince past = true) : ¬ Safe (past ++ [l]) := by
  intro h
  have hsep := ((separated_append _ _ _ past l).mp h.2).2 hr
  rw [show since Lamps.green Lamps.yellow past = true from hs] at hsep
  cases hsep

/-- Green lit in front of the red phase: the next firing turns it to red. -/
theorem red_after_green (cfg : Config) (s : Recorded)
    (hfun : s.1.driver.timer.timer.function = some .timerCallback)
    (hpend : s.1.driver.timer.timer.pending = true) (hg : greenSince s.2 = true)
    (hy : s.1.driver.lamps.yellow = false) (hi : 4 < s.1.driver.timer.iteration.toNat) :
    ∃ u, Reach (recordedStep cfg) NoWrite s u ∧ ¬ Safe u.2 := by
  -- wait until the timer is due, then let it fire
  let now := s.1.now + s.1.driver.timer.timer.due
  have hexp : s.1.driver.timer.timer.Expired now := ⟨hpend, Nat.le_add_left _ _⟩
  have hwait : recordedStep cfg s (.tick s.1.driver.timer.timer.due) =
      some (⟨now, s.1.driver⟩, s.2 ++ [s.1.driver.lamps]) := rfl
  obtain ⟨d, hfire, hd⟩ : ∃ d, s.1.driver.expire cfg now = some d ∧
      d.lamps = phaseLamps s.1.driver.timer.iteration :=
    ⟨_, expire_eq cfg s.1.driver now hfun, rfl⟩
  have hred : d.lamps.red = true := by
    rw [hd, phaseLamps, if_neg (by omega), if_neg (by omega)]
  have hsince : greenSince (s.2 ++ [s.1.driver.lamps]) = true := by
    simp [greenSince_append, hg, hy]
  have hsecond : recordedStep cfg (⟨now, s.1.driver⟩, s.2 ++ [s.1.driver.lamps]) .fire =
      some (⟨now, d⟩, (s.2 ++ [s.1.driver.lamps]) ++ [d.lamps]) := by
    simp only [recordedStep, recorded, step, hexp, if_true, hfire, Option.map_some]
  have hreach : Reach (recordedStep cfg) NoWrite s _ :=
    reach_tail .fire (reach_tail (.tick s.1.driver.timer.timer.due) (reach_refl s) trivial hwait)
      trivial hsecond
  exact ⟨_, hreach, not_safe_of_red _ _ hred hsince⟩

/-- A write that the condition excludes leads, at once or with the next phases of the timer
alone, to a history that is not safe. -/
theorem not_safe_of_not_allowed (cfg : Config) (s : State) (t v : Recorded) (hs : Loaded cfg s)
    (h : Reach (recordedStep cfg) Allowed (s, [s.driver.lamps]) t) (e : Event)
    (he : ¬ Allowed t e) (hv : recordedStep cfg t e = some v) :
    ∃ u, Reach (recordedStep cfg) NoWrite v u ∧ ¬ Safe u.2 := by
  have hinv := inv_reach cfg s t hs h
  cases e with
  | tick ticks => exact absurd trivial he
  | fire => exact absurd trivial he
  | write buf alloc =>
    simp only [recordedStep, recorded, step, Option.map_some] at hv
    obtain rfl := Option.some.inj hv
    have hd := myWrite_fst t.1.driver buf alloc
    simp only [Allowed] at he
    cases hsw : switchOf buf alloc with
    | off =>
      rw [hsw] at he
      exact absurd trivial he
    | refused =>
      rw [hsw] at he
      exact absurd trivial he
    | on pin =>
      rw [hsw] at he hd
      simp only at he hd
      rw [hd]
      -- either a second lamp is lit now, or an order is broken
      by_cases hone : (t.1.driver.gpioSetValue pin true).lamps.AtMostOne
      · cases pin with
        | RED =>
          simp only [Driver.gpioSetValue, Lamps.AtMostOne, true_and, Bool.not_eq_true] at hone
          have hsince : greenSince t.2 = true := by
            by_contra hn
            exact he ⟨hone.1, hone.2.1, by simpa using hn⟩
          exact ⟨_, reach_refl _, not_safe_of_red _ _ rfl hsince⟩
        | GREEN =>
          simp only [Driver.gpioSetValue, Lamps.AtMostOne, true_and, and_true,
            Bool.not_eq_true] at hone
          have hlate : 4 < t.1.driver.timer.iteration.toNat := by
            by_contra hn
            exact he ⟨hone.1, hone.2.2, by omega⟩
          exact red_after_green cfg _ hinv.handler hinv.pending
            (by simp [greenSince_append, Driver.gpioSetValue]) hone.2.2 hlate
        | YELLOW =>
          simp only [Driver.gpioSetValue, Lamps.AtMostOne, and_true, Bool.not_eq_true] at hone
          exact absurd ⟨hone.2.1, hone.2.2⟩ he
      · exact ⟨_, reach_refl _, not_safe_of_two _ _ hone⟩

end Necessity

end DevKota.Lab4
