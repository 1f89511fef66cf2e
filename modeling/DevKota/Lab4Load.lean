import DevKota.Lab4Lights
import DevKota.Lab4Report

/-! Loads and unloads of the lab4 driver, and the resources that the kernel keeps for it. -/
namespace DevKota.Lab4
open CString Kernel Runs

/-- What the module was given: the character device number, with the load whose `fops` it is
registered for, and the pins. -/
@[ext] structure Resources where
  device : Option ℕ
  held : Pin → Bool

/-- What the kernel answers to the requests of one load, as far as the module does not hold the
resource already. -/
structure Grants where
  device : Bool
  pin : Pin → Bool

namespace Resources

/-- `register_chrdev`. -/
def registerChrdev (r : Resources) (load : ℕ) (granted : Bool) : Resources × ℤ :=
  if r.device = none ∧ granted then ({ r with device := some load }, 0) else (r, -EBUSY)

/-- `unregister_chrdev`. -/
def unregisterChrdev (r : Resources) : Resources := { r with device := none }

/-- `gpio_request`. -/
def gpioRequest (r : Resources) (pin : Pin) (granted : Bool) : Resources × ℤ :=
  if r.held pin = false ∧ granted then ({ r with held := Function.update r.held pin true }, 0)
  else (r, -EBUSY)

/-- `mytraffic_init`: the resources, the module's memory and the return value. -/
def mytrafficInit (cfg : Config) (now : ℕ) (found : Lamps) (r : Resources) (load : ℕ)
    (g : Grants) : Resources × Driver × ℤ :=
  -- this result is printed, and the load goes on
  let r := (r.registerChrdev load g.device).1
  let d : Driver := ⟨found, ⟨TimerList.zeroed, 0, 0⟩⟩
  let red := r.gpioRequest .RED (g.pin .RED)
  if red.2 ≠ 0 then (red.1, d, -EINVAL)
  else
    let d := d.gpioSetValue .RED false
    let yellow := red.1.gpioRequest .YELLOW (g.pin .YELLOW)
    -- what was requested before stays requested
    if yellow.2 ≠ 0 then (yellow.1, d, -EINVAL)
    else
      let d := d.gpioSetValue .YELLOW false
      let green := yellow.1.gpioRequest .GREEN (g.pin .GREEN)
      if green.2 ≠ 0 then (green.1, d, -EINVAL)
      else
        let d := d.gpioSetValue .GREEN false
        (green.1, d.trafficMode cfg now NORMAL, 0)

/-- `mytraffic_exit`: no pin is freed and no timer deleted. -/
def mytrafficExit (r : Resources) : Resources := r.unregisterChrdev

end Resources

/-- The machine: the clock, the number of loads so far, what the module holds, the outputs, the
memory of the module while it is loaded, and the timers that were armed when theirs was freed. -/
structure System where
  now : ℕ
  loads : ℕ
  resources : Resources
  lamps : Lamps
  driver : Option Driver
  stale : List (TimerList Callback)

inductive SystemEvent
  | load (g : Grants)
  | unload
  | tick (ticks : ℕ)
  | fire
  | write (buf : UserBuf) (alloc : Bool)
  | read (r : Request) (offset : ℕ) (mapped : Bool)

namespace System

/-- Before the first load. -/
def booted (now : ℕ) (lamps : Lamps) : System := ⟨now, 0, ⟨none, fun _ => false⟩, lamps, none, []⟩

/-- The module's memory is freed. -/
def freeModule (s : System) (d : Driver) : System :=
  { s with
    lamps := d.lamps
    driver := none
    stale := if d.timer.timer.pending then d.timer.timer :: s.stale else s.stale }

/-- What the next load does. -/
def init (cfg : Config) (s : System) (g : Grants) : Resources × Driver × ℤ :=
  s.resources.mytrafficInit cfg s.now s.lamps (s.loads+1) g

def load (cfg : Config) (s : System) (g : Grants) : System :=
  let r := s.init cfg g
  let s := { s with loads := s.loads + 1, resources := r.1 }
  if r.2.2 = 0 then { s with lamps := r.2.1.lamps, driver := some r.2.1 } else s.freeModule r.2.1

def unload (s : System) (d : Driver) : System :=
  { s with resources := s.resources.mytrafficExit }.freeModule d

/-- One event in the loaded module. -/
def inModule (cfg : Config) (s : System) (e : Event) : Option System :=
  s.driver.bind fun d => (step cfg ⟨s.now, d⟩ e).map fun t =>
    { s with lamps := t.driver.lamps, driver := some t.driver }

end System

/-- One atomic event. Nothing is defined to follow when the kernel calls into the text of a
module that is gone: a timer that is left over, or a device registered by an earlier load. -/
def systemStep (cfg : Config) (s : System) : SystemEvent → Option System
  | .load g => if s.driver.isSome then none else some (s.load cfg g)
  | .unload => s.driver.map s.unload
  | .tick ticks => some { s with now := s.now + ticks }
  | .fire => s.inModule cfg .fire
  | .write buf alloc =>
    if s.resources.device = some s.loads then s.inModule cfg (.write buf alloc) else none
  -- `myRead` gives the reader its bytes, and stores nothing in the module
  | .read _ _ _ => if s.resources.device = some s.loads then s.driver.map fun _ => s else none

/-- The module has given everything back. -/
structure Released (s : System) : Prop where
  device : s.resources.device = none
  held (pin : Pin) : s.resources.held pin = false
  timer : s.stale = []

/-- While the module is not loaded it holds nothing, and a load succeeds whenever the first one
could. -/
structure Balanced (cfg : Config) (s : System) : Prop where
  released : s.driver = none → Released s
  reload : s.driver = none → ∀ g, ((System.booted s.now s.lamps).init cfg g).2.2 = 0 →
    (s.init cfg g).2.2 = 0

/-- The condition on one step: a load is granted all pins, or neither the device number nor the
first pin; and there is no unload. -/
def Balances (_ : System) : SystemEvent → Prop
  | .load g => (∀ pin, g.pin pin = true) ∨ (g.device = false ∧ g.pin .RED = false)
  | .unload => False
  | _ => True

/-- The pins that a load requests and gets, in the order RED, YELLOW, GREEN. -/
def acquired (free : Pin → Bool) : Pin → Bool
  | .RED => free .RED
  | .YELLOW => free .RED && free .YELLOW
  | .GREEN => free .RED && free .YELLOW && free .GREEN

/-- The pins that a load would be granted. -/
def Resources.free (r : Resources) (g : Grants) (pin : Pin) : Bool := g.pin pin && !r.held pin

/-- The resources after a pin was requested with success. -/
def Resources.take (r : Resources) (pin : Pin) : Resources :=
  { r with held := Function.update r.held pin true }

section Init
variable (cfg : Config) (now : ℕ) (found : Lamps) (r : Resources) (load : ℕ) (g : Grants)

theorem driver_init_ok_iff (granted : Pin → Bool) :
    (Driver.mytrafficInit cfg now found granted).2 = 0 ↔ ∀ pin, granted pin = true := by
  have herr : (-EINVAL : ℤ) ≠ 0 := by decide
  have hall : (∀ pin, granted pin = true) ↔
      granted .RED = true ∧ granted .YELLOW = true ∧ granted .GREEN = true := by
    refine ⟨fun h => ⟨h _, h _, h _⟩, fun h pin => ?_⟩
    cases pin with
    | RED => exact h.1
    | YELLOW => exact h.2.1
    | GREEN => exact h.2.2
  rw [hall]
  unfold Driver.mytrafficInit
  by_cases h1 : granted .RED = true
  · by_cases h2 : granted .YELLOW = true
    · by_cases h3 : granted .GREEN = true
      · simp [h1, h2, h3]
      · simp [h1, h2, h3, herr]
    · simp [h1, h2, herr]
  · simp [h1, herr]

/-- The timer is set up last, so a load that fails has not armed it. -/
theorem driver_init_idle (granted : Pin → Bool)
    (h : (Driver.mytrafficInit cfg now found granted).2 ≠ 0) :
    (Driver.mytrafficInit cfg now found granted).1.timer.timer.pending = false := by
  unfold Driver.mytrafficInit at h ⊢
  by_cases h1 : granted .RED = true
  · by_cases h2 : granted .YELLOW = true
    · by_cases h3 : granted .GREEN = true
      · simp [h1, h2, h3] at h
      · simp [h1, h2, h3, Driver.gpioSetValue, TimerList.zeroed]
    · simp [h1, h2, Driver.gpioSetValue, TimerList.zeroed]
  · simp [h1, TimerList.zeroed]

theorem registerChrdev_held (granted : Bool) : (r.registerChrdev load granted).1.held = r.held := by
  unfold Resources.registerChrdev
  split_ifs <;> rfl

theorem gpioRequest_free (pin : Pin) (h : r.free g pin = true) :
    r.gpioRequest pin (g.pin pin) = (r.take pin, 0) := by
  rw [Resources.free, Bool.and_eq_true, Bool.not_eq_true'] at h
  rw [Resources.gpioRequest, if_pos ⟨h.2, h.1⟩, Resources.take]

theorem gpioRequest_refused (pin : Pin) (h : ¬ r.free g pin = true) :
    r.gpioRequest pin (g.pin pin) = (r, -EBUSY) := by
  rw [Resources.free, Bool.and_eq_true, Bool.not_eq_true'] at h
  rw [Resources.gpioRequest, if_neg fun hg => h ⟨hg.2, hg.1⟩]

theorem free_take (pin pin' : Pin) (h : pin' ≠ pin) : (r.take pin).free g pin' = r.free g pin' := by
  simp [Resources.free, Resources.take, Function.update_of_ne h]

theorem held_take (pin pin' : Pin) :
    (r.take pin).held pin' = (r.held pin' || decide (pin' = pin)) := by
  by_cases h : pin' = pin
  · simp [h, Resources.take]
  · simp [h, Resources.take]

/-- What a load takes; the rest of it is the load on the pins that are granted and free. -/
theorem init_eq :
    r.mytrafficInit cfg now found load g =
      (⟨(r.registerChrdev load g.device).1.device,
        fun pin => r.held pin || acquired (r.free g) pin⟩,
        Driver.mytrafficInit cfg now found (r.free g)) := by
  have h0 : (-EBUSY : ℤ) ≠ 0 := by decide
  have hheld := registerChrdev_held r load g.device
  have hfree : (r.registerChrdev load g.device).1.free g = r.free g := by
    unfold Resources.free
    rw [hheld]
  unfold Resources.mytrafficInit Driver.mytrafficInit
  generalize (r.registerChrdev load g.device).1 = r' at hheld hfree ⊢
  -- each request is made only when the one before it succeeded
  by_cases h1 : r.free g .RED = true
  · have hred := gpioRequest_free r' g .RED (by rw [hfree, h1])
    have hfree1 : (r'.take .RED).free g .YELLOW = r.free g .YELLOW := by
      rw [free_take _ _ _ _ (by decide), hfree]
    by_cases h2 : r.free g .YELLOW = true
    · have hyellow := gpioRequest_free (r'.take .RED) g .YELLOW (by rw [hfree1, h2])
      have hfree2 : ((r'.take .RED).take .YELLOW).free g .GREEN = r.free g .GREEN := by
        rw [free_take _ _ _ _ (by decide), free_take _ _ _ _ (by decide), hfree]
      by_cases h3 : r.free g .GREEN = true
      · have hgreen := gpioRequest_free ((r'.take .RED).take .YELLOW) g .GREEN (by rw [hfree2, h3])
        simp only [hred, hyellow, hgreen, h1, h2, h3, ne_eq, not_true_eq_false, if_false]
        refine Prod.ext (Resources.ext rfl ?_) rfl
        funext pin
        cases pin <;> simp [held_take, hheld, acquired, h1, h2, h3]
      · have hgreen := gpioRequest_refused ((r'.take .RED).take .YELLOW) g .GREEN
          (by rw [hfree2]; exact h3)
        simp only [hred, hyellow, hgreen, h1, h2, h3, h0, ne_eq, not_true_eq_false, not_false_eq_true,
          if_false, if_true]
        refine Prod.ext (Resources.ext rfl ?_) rfl
        funext pin
        cases pin <;> simp [held_take, hheld, acquired, h1, h2, h3]
    · have hyellow := gpioRequest_refused (r'.take .RED) g .YELLOW (by rw [hfree1]; exact h2)
      simp only [hred, hyellow, h1, h2, h0, ne_eq, not_true_eq_false, not_false_eq_true, if_false,
        if_true]
      refine Prod.ext (Resources.ext rfl ?_) rfl
      funext pin
      cases pin <;> simp [held_take, hheld, acquired, h1, h2]
  · have hred := gpioRequest_refused r' g .RED (by rw [hfree]; exact h1)
    simp only [hred, h1, h0, ne_eq, not_false_eq_true, if_true]
    refine Prod.ext (Resources.ext rfl ?_) rfl
    funext pin
    cases pin <;> simp [hheld, acquired, h1]

end Init

/-- While the module is loaded it holds its pins, and its timer is armed. -/
def Holding (s : System) : Prop :=
  ∀ d, s.driver = some d → (∀ pin, s.resources.held pin = true) ∧ d.timer.timer.pending = true

section Steps
variable (cfg : Config) (s t : System)

/-- The timer arms itself again, and nothing in the module deletes it. -/
theorem step_pending (u v : State) (e : Event) (h : step cfg u e = some v)
    (hp : u.driver.timer.timer.pending = true) : v.driver.timer.timer.pending = true := by
  cases e with
  | tick ticks =>
    obtain rfl := Option.some.inj h
    exact hp
  | write buf alloc =>
    obtain rfl := Option.some.inj h
    simp only [myWrite_fst]
    split
    · rename_i pin _
      cases pin <;> exact hp
    · exact hp
    · exact hp
  | fire =>
    -- the callback starts the timer again
    simp only [step] at h
    split_ifs at h
    obtain ⟨d, hd, rfl⟩ := Option.map_eq_some_iff.mp h
    unfold Driver.expire at hd
    split at hd
    · obtain rfl := Option.some.inj hd
      rfl
    · cases hd

theorem inModule_cases (e : Event) (h : s.inModule cfg e = some t) :
    ∃ d v, s.driver = some d ∧ step cfg ⟨s.now, d⟩ e = some v ∧
      t = { s with lamps := v.driver.lamps, driver := some v.driver } := by
  obtain ⟨d, hd, h⟩ := Option.bind_eq_some_iff.mp h
  obtain ⟨v, hv, rfl⟩ := Option.map_eq_some_iff.mp h
  exact ⟨d, v, hd, hv, rfl⟩

/-- Everything that a step can do. -/
theorem systemStep_cases (e : SystemEvent) (h : systemStep cfg s e = some t) :
    (∃ g, e = .load g ∧ s.driver = none ∧ t = s.load cfg g) ∨
      (∃ d, e = .unload ∧ s.driver = some d ∧ t = s.unload d) ∨
      (Balances s e ∧ t.driver = s.driver ∧ t.resources = s.resources ∧ t.stale = s.stale) ∨
      (Balances s e ∧ t.resources = s.resources ∧ ∃ d d', s.driver = some d ∧
        t.driver = some d' ∧ (d.timer.timer.pending = true → d'.timer.timer.pending = true)) := by
  cases e with
  | load g =>
    simp only [systemStep] at h
    split_ifs at h with hd
    exact Or.inl ⟨g, rfl, by simpa using hd, (Option.some.inj h).symm⟩
  | unload =>
    obtain ⟨d, hd, rfl⟩ := Option.map_eq_some_iff.mp h
    exact Or.inr (Or.inl ⟨d, rfl, hd, rfl⟩)
  | tick ticks =>
    obtain rfl := Option.some.inj h
    exact Or.inr (Or.inr (Or.inl ⟨trivial, rfl, rfl, rfl⟩))
  | fire =>
    obtain ⟨d, v, hd, hv, rfl⟩ := inModule_cases cfg s t .fire h
    exact Or.inr (Or.inr (Or.inr ⟨trivial, rfl, d, v.driver, hd, rfl, step_pending cfg _ v _ hv⟩))
  | write buf alloc =>
    simp only [systemStep] at h
    split_ifs at h
    obtain ⟨d, v, hd, hv, rfl⟩ := inModule_cases cfg s t _ h
    exact Or.inr (Or.inr (Or.inr ⟨trivial, rfl, d, v.driver, hd, rfl, step_pending cfg _ v _ hv⟩))
  | read r offset mapped =>
    simp only [systemStep] at h
    split_ifs at h
    obtain ⟨d, -, rfl⟩ := Option.map_eq_some_iff.mp h
    exact Or.inr (Or.inr (Or.inl ⟨trivial, rfl, rfl, rfl⟩))

theorem init_ok_iff (g : Grants) :
    (s.init cfg g).2.2 = 0 ↔ ∀ pin, s.resources.free g pin = true := by
  rw [System.init, init_eq]
  exact driver_init_ok_iff cfg s.now s.lamps _

theorem acquired_of_all (free : Pin → Bool) (h : ∀ pin, free pin = true) (pin : Pin) :
    acquired free pin = true := by
  cases pin <;> simp [acquired, h]

/-- A load that succeeds leaves the module holding its pins, with its timer armed. -/
theorem load_holding (g : Grants) : Holding (s.load cfg g) := by
  intro d hd
  unfold System.load at hd ⊢
  by_cases hok : (s.init cfg g).2.2 = 0
  · simp only [if_pos hok] at hd ⊢
    have hfree := (init_ok_iff cfg s g).mp hok
    have hinit := init_eq cfg s.now s.lamps s.resources (s.loads+1) g
    change s.init cfg g = _ at hinit
    constructor
    · intro pin
      rw [hinit]
      simp [acquired_of_all _ hfree pin]
    · rw [← Option.some.inj hd]
      rw [hinit] at hok ⊢
      exact (loaded_driver cfg ⟨s.now, _⟩ ⟨s.lamps, s.resources.free g, Prod.ext rfl hok⟩).2.2.2
  · simp only [if_neg hok, System.freeModule] at hd
    cases hd

theorem holding_step (e : SystemEvent) (h : Holding s) (hs : systemStep cfg s e = some t) :
    Holding t := by
  rcases systemStep_cases cfg s t e hs with
    ⟨g, -, -, rfl⟩ | ⟨d, -, -, rfl⟩ | ⟨-, hd, hr, -⟩ | ⟨-, hr, d, d', hd, hd', hp⟩
  · exact load_holding cfg s g
  · intro d' hd'
    cases hd'
  · intro d hd'
    rw [hr]
    exact h d (hd ▸ hd')
  · intro d'' hd''
    rw [hd'] at hd''
    obtain rfl := Option.some.inj hd''
    rw [hr]
    exact ⟨(h d hd).1, hp (h d hd).2⟩

/-- When everything was given back the next load is like the first one. -/
theorem balanced_iff : Balanced cfg s ↔ (s.driver = none → Released s) := by
  refine ⟨fun h => h.released, fun h => ⟨h, fun hd g hok => ?_⟩⟩
  have hheld := (h hd).held
  rw [init_ok_iff] at hok ⊢
  intro pin
  have hpin := hok pin
  simp only [Resources.free, System.booted, hheld] at hpin ⊢
  exact hpin

/-- A load when nothing is held takes what it is granted. -/
theorem init_released (g : Grants) (h : Released s) :
    s.init cfg g = (⟨if g.device = true then some (s.loads+1) else none, acquired g.pin⟩,
      Driver.mytrafficInit cfg s.now s.lamps g.pin) := by
  have hfree : s.resources.free g = g.pin := by
    funext pin
    simp [Resources.free, h.held]
  rw [System.init, init_eq, hfree]
  refine Prod.ext (Resources.ext ?_ ?_) rfl
  · simp only [Resources.registerChrdev, h.device, true_and]
    split_ifs
    · rfl
    · exact h.device
  · funext pin
    simp [h.held]

/-- A load of a module that holds nothing leaves the machine balanced exactly when it is granted
all pins, or neither the device number nor the first pin. -/
theorem load_balanced (g : Grants) (h : Released s) :
    Balanced cfg (s.load cfg g) ↔ Balances s (.load g) := by
  have hinit := init_released cfg s g h
  rw [balanced_iff]
  unfold System.load
  by_cases hok : (s.init cfg g).2.2 = 0
  · have hall : ∀ pin, g.pin pin = true := by
      rw [hinit] at hok
      exact (driver_init_ok_iff cfg s.now s.lamps g.pin).mp hok
    simp only [if_pos hok]
    exact ⟨fun _ => Or.inl hall, fun _ hd => by cases hd⟩
  · simp only [if_neg hok, System.freeModule]
    rw [hinit] at hok ⊢
    have hall : ¬ ∀ pin, g.pin pin = true :=
      fun h => hok ((driver_init_ok_iff cfg s.now s.lamps g.pin).mpr h)
    simp only [driver_init_idle cfg s.now s.lamps g.pin hok]
    constructor
    · intro hr
      obtain ⟨hdevice, hheld, -⟩ := hr trivial
      refine Or.inr ⟨?_, hheld .RED⟩
      by_contra hg
      rw [Bool.not_eq_false] at hg
      simp [hg] at hdevice
    · intro hb _
      obtain ⟨hg, hred⟩ := hb.resolve_left hall
      refine ⟨by simp [hg], fun pin => ?_, h.timer⟩
      -- the other pins are only requested behind the first one
      cases pin <;> simp [acquired, hred]

theorem unload_not_balanced (d : Driver) (h : Holding s) (hd : s.driver = some d) :
    ¬ Balanced cfg (s.unload d) := by
  intro hb
  have hfree := (hb.released rfl).held .RED
  have hheld : (s.unload d).resources.held .RED = true := (h d hd).1 .RED
  rw [hheld] at hfree
  cases hfree

theorem balanced_step (e : SystemEvent) (hi : Holding s) (h : Balanced cfg s)
    (hs : systemStep cfg s e = some t) : Balanced cfg t ↔ Balances s e := by
  rcases systemStep_cases cfg s t e hs with
    ⟨g, rfl, hd, rfl⟩ | ⟨d, rfl, hd, rfl⟩ | ⟨hb, hd, hr, hstale⟩ | ⟨hb, -, -, d', -, hd', -⟩
  · exact load_balanced cfg s g (h.released hd)
  · exact ⟨fun hb => absurd hb (unload_not_balanced cfg s d hi hd), fun hb => hb.elim⟩
  · refine ⟨fun _ => hb, fun _ => (balanced_iff cfg t).mpr fun htd => ?_⟩
    obtain ⟨hdev, hpins, htimer⟩ := h.released (hd ▸ htd)
    exact ⟨hr ▸ hdev, hr ▸ hpins, hstale ▸ htimer⟩
  · refine ⟨fun _ => hb, fun _ => (balanced_iff cfg t).mpr fun htd => ?_⟩
    rw [hd'] at htd
    cases htd

end Steps

theorem booted_holding (now : ℕ) (lamps : Lamps) : Holding (System.booted now lamps) :=
  fun _ hd => by cases hd

theorem booted_balanced (cfg : Config) (now : ℕ) (lamps : Lamps) :
    Balanced cfg (System.booted now lamps) :=
  (balanced_iff cfg _).mpr fun _ => ⟨rfl, fun _ => rfl, rfl⟩

/-- In a run of loads, unloads, ticks, reads and writes, the module gives back what it holds
whenever it is not loaded exactly when every load gets all pins, or neither the device number
nor the first pin, and there is no unload. -/
theorem loads_balance_iff (cfg : Config) (now : ℕ) (lamps : Lamps) (es : List SystemEvent)
    (s : System)
    (h : run (systemStep cfg) (fun _ _ => true) (System.booted now lamps) es = some s) :
    Always (systemStep cfg) (Balanced cfg) (System.booted now lamps) es ↔
      Meets (systemStep cfg) Balances (System.booted now lamps) es :=
  always_iff_meets (I := Holding) (fun s e t hi _ hs => holding_step cfg s t e hi hs)
    (fun s e t hi hp _ hs => balanced_step cfg s t e hi hp hs) h (booted_holding now lamps)
    (booted_balanced cfg now lamps)

instance (s : System) (e : SystemEvent) : Decidable (Balances s e) :=
  match e with
  | .load g => decidable_of_iff
      ((g.pin .RED = true ∧ g.pin .YELLOW = true ∧ g.pin .GREEN = true) ∨
        (g.device = false ∧ g.pin .RED = false))
      (or_congr ⟨fun h pin => by cases pin <;> simp [h], fun h => ⟨h _, h _, h _⟩⟩ Iff.rfl)
  | .unload => .isFalse id
  | .tick _ => .isTrue trivial
  | .fire => .isTrue trivial
  | .write _ _ => .isTrue trivial
  | .read _ _ _ => .isTrue trivial

def allGranted : Grants := ⟨true, fun _ => true⟩

/-- A load that gets nothing, one that gets everything, the first phase of the lights and a
write. -/
def sampleLoads : List SystemEvent :=
  [.load ⟨false, fun _ => false⟩, .load allGranted, .tick 300, .fire, .write ⟨ascii "2", true⟩ true]

theorem loads_balance_iff_run : ∃ s,
    run (systemStep sampleConfig) (fun _ _ => true) (System.booted 0 ⟨true, true, true⟩)
        sampleLoads = some s ∧ s.lamps = ⟨false, true, true⟩ ∧
      Always (systemStep sampleConfig) (Balanced sampleConfig) (System.booted 0 ⟨true, true, true⟩)
        sampleLoads := by
  have hlamps : (run (systemStep sampleConfig) (fun _ _ => true) (System.booted 0 ⟨true, true, true⟩)
      sampleLoads).any (fun s => s.lamps = ⟨false, true, true⟩) = true := by decide
  obtain ⟨s, hs, hp⟩ := (Option.any_eq_true _ _).mp hlamps
  have hmeets : (run (systemStep sampleConfig) (fun s e => decide (Balances s e))
      (System.booted 0 ⟨true, true, true⟩) sampleLoads).isSome = true := by decide
  obtain ⟨t, ht⟩ := Option.isSome_iff_exists.mp hmeets
  exact ⟨s, hs, of_decide_eq_true hp, (loads_balance_iff sampleConfig 0 _ sampleLoads s hs).mpr
    (meets_of_run (fun _ _ h => of_decide_eq_true h) ht)⟩

/-- An unload leaves the pins requested and the timer armed. -/
theorem unload_keeps : ¬ ∀ (cfg : Config) (now : ℕ) (lamps : Lamps) (es : List SystemEvent)
    (s : System),
    run (systemStep cfg) (fun _ _ => true) (System.booted now lamps) es = some s →
      Always (systemStep cfg) (Balanced cfg) (System.booted now lamps) es := by
  intro hall
  have hrun : (run (systemStep sampleConfig) (fun _ _ => true) (System.booted 0 ⟨false, false, false⟩)
      [.load allGranted, .unload]).any (fun s => s.driver = none ∧ s.resources.held .RED = true ∧
        s.stale ≠ []) = true := by decide
  obtain ⟨s, hs, hp⟩ := (Option.any_eq_true _ _).mp hrun
  obtain ⟨hd, hheld, -⟩ := of_decide_eq_true hp
  have hlast := always_last (hall _ _ _ _ s hs) hs
  have hfree := (hlast.released hd).held .RED
  rw [hheld] at hfree
  cases hfree

/-- After an unload no load succeeds any more: its pins are held for ever. -/
theorem reload_fails (cfg : Config) (s : System) (d : Driver) (hi : Holding s)
    (hd : s.driver = some d) (t : System)
    (h : Reach (systemStep cfg) (fun _ _ => True) (s.unload d) t) (g : Grants) :
    t.driver = none ∧ (t.init cfg g).2.2 ≠ 0 := by
  have hfails (u : System) (hu : u.resources.held .RED = true) (g : Grants) :
      (u.init cfg g).2.2 ≠ 0 := by
    intro hok
    have hred := (init_ok_iff cfg u g).mp hok .RED
    simp [Resources.free, hu] at hred
  -- an unload leaves the pin RED taken, and nothing after it gives it back
  have hkept : t.driver = none ∧ t.resources.held .RED = true := by
    refine reach_invariant (I := fun u => u.driver = none ∧ u.resources.held .RED = true) ?_ h
      ⟨rfl, (hi d hd).1 .RED⟩
    intro u e v hu _ hs
    rcases systemStep_cases cfg u v e hs with
      ⟨g, -, -, rfl⟩ | ⟨d, -, hud, -⟩ | ⟨-, hvd, hr, -⟩ | ⟨-, -, d, -, hud, -⟩
    · have hheld : (u.init cfg g).1.held .RED = true := by
        rw [System.init, init_eq]
        simp [hu.2]
      unfold System.load
      rw [if_neg (hfails u hu.2 g)]
      exact ⟨rfl, hheld⟩
    · rw [hu.1] at hud
      cases hud
    · rw [hvd, hr]
      exact hu
    · rw [hu.1] at hud
      cases hud
  exact ⟨hkept.1, hfails t hkept.2 g⟩

/-- While the module is out none of its pins is held. -/
def PinsFree (s : System) : Prop := s.driver = none → ∀ pin, s.resources.held pin = false

/-- A load gets all pins or not the first one, and there is no unload. -/
def KeepsPins (_ : System) : SystemEvent → Prop
  | .load g => (∀ pin, g.pin pin = true) ∨ g.pin .RED = false
  | .unload => False
  | _ => True

section Reload
variable (cfg : Config) (s t : System)

/-- Before and after a load that fails the module is out. -/
theorem load_failed (g : Grants) (hfail : (s.init cfg g).2.2 ≠ 0) :
    (s.load cfg g).driver = none ∧ (s.load cfg g).resources = (s.init cfg g).1 := by
  unfold System.load
  rw [if_neg hfail]
  exact ⟨rfl, rfl⟩

theorem init_held (g : Grants) (pin : Pin) :
    (s.init cfg g).1.held pin = (s.resources.held pin || acquired (s.resources.free g) pin) := by
  rw [System.init, init_eq]

theorem load_pinsFree_iff (g : Grants) (hfree : ∀ pin, s.resources.held pin = false) :
    PinsFree (s.load cfg g) ↔ KeepsPins s (.load g) := by
  have hgranted : s.resources.free g = g.pin := by
    funext pin
    simp [Resources.free, hfree]
  by_cases hok : (s.init cfg g).2.2 = 0
  · have hall := (init_ok_iff cfg s g).mp hok
    rw [hgranted] at hall
    refine ⟨fun _ => Or.inl hall, fun _ hout => ?_⟩
    unfold System.load at hout
    rw [if_pos hok] at hout
    cases hout
  · obtain ⟨hout, hres⟩ := load_failed cfg s g hok
    have hmiss : ¬ ∀ pin, g.pin pin = true := by
      intro hall
      exact hok ((init_ok_iff cfg s g).mpr (hgranted ▸ hall))
    have hheld (pin : Pin) : (s.load cfg g).resources.held pin = acquired g.pin pin := by
      rw [hres, init_held, hfree, hgranted]
      rfl
    constructor
    · intro hpins
      have hred := hpins hout .RED
      rw [hheld] at hred
      exact Or.inr hred
    · intro hkeeps _ pin
      have hred := hkeeps.resolve_left hmiss
      -- the other pins are only requested behind the first one
      rw [hheld]
      cases pin <;> simp [acquired, hred]

theorem pinsFree_step (e : SystemEvent) (hi : Holding s) (h : PinsFree s)
    (hs : systemStep cfg s e = some t) : PinsFree t ↔ KeepsPins s e := by
  have hkeeps (hb : Balances s e) : KeepsPins s e := by
    cases e with
    | load g => exact hb.imp_right And.right
    | _ => exact hb
  rcases systemStep_cases cfg s t e hs with
    ⟨g, rfl, hd, rfl⟩ | ⟨d, rfl, hd, rfl⟩ | ⟨hb, hd, hr, -⟩ | ⟨hb, -, -, d', -, hd', -⟩
  · exact load_pinsFree_iff cfg s g (h hd)
  · refine ⟨fun hpins => ?_, fun hkeep => hkeep.elim⟩
    have hred := hpins rfl .RED
    have hheld : (s.unload d).resources.held .RED = true := (hi d hd).1 .RED
    rw [hheld] at hred
    cases hred
  · refine ⟨fun _ => hkeeps hb, fun _ hout => ?_⟩
    rw [hr]
    exact h (hd ▸ hout)
  · refine ⟨fun _ => hkeeps hb, fun _ hout => ?_⟩
    rw [hd'] at hout
    cases hout

/-- A pin that is held while the module is out stays so for ever. -/
theorem stranded_step (e : SystemEvent) (h : ¬ PinsFree s) (hs : systemStep cfg s e = some t) :
    ¬ PinsFree t := by
  obtain ⟨hout, pin, hpin⟩ : s.driver = none ∧ ∃ pin, s.resources.held pin = true := by
    simpa [PinsFree] using h
  rcases systemStep_cases cfg s t e hs with
    ⟨g, -, -, rfl⟩ | ⟨d, -, hd, -⟩ | ⟨-, hd, hr, -⟩ | ⟨-, -, d, -, hd, -⟩
  -- a load cannot have the pin that is taken
  · have hfail : (s.init cfg g).2.2 ≠ 0 := by
      intro hok
      have hfree := (init_ok_iff cfg s g).mp hok pin
      simp [Resources.free, hpin] at hfree
    obtain ⟨hdriver, hres⟩ := load_failed cfg s g hfail
    intro hpins
    have hnot := hpins hdriver pin
    rw [hres, init_held, hpin] at hnot
    cases hnot
  · rw [hout] at hd
    cases hd
  · intro hpins
    have hnot := hpins (hd.trans hout) pin
    rw [hr, hpin] at hnot
    cases hnot
  · rw [hout] at hd
    cases hd

theorem pinsFree_iff : PinsFree s ↔ (s.driver = none → (s.init cfg allGranted).2.2 = 0) := by
  apply imp_congr_right
  intro _
  rw [init_ok_iff]
  apply forall_congr'
  intro pin
  simp [Resources.free, allGranted]

end Reload

/-- After a run, if the module is out, a load that is granted everything succeeds exactly when
every load of the run got all pins or not the first one, and there was no unload. -/
theorem reload_iff (cfg : Config) (now : ℕ) (lamps : Lamps) (es : List SystemEvent) (t : System)
    (h : run (systemStep cfg) (fun _ _ => true) (System.booted now lamps) es = some t) :
    (t.driver = none → (t.init cfg allGranted).2.2 = 0) ↔
      Meets (systemStep cfg) KeepsPins (System.booted now lamps) es := by
  have hmeets : Always (systemStep cfg) PinsFree (System.booted now lamps) es ↔
      Meets (systemStep cfg) KeepsPins (System.booted now lamps) es :=
    always_iff_meets (I := Holding) (fun s e t hi _ hs => holding_step cfg s t e hi hs)
      (fun s e t hi hp _ hs => pinsFree_step cfg s t e hi hp hs) h (booted_holding now lamps)
      (fun _ _ => rfl)
  rw [← pinsFree_iff, ← hmeets,
    always_iff_last (fun s e t hs _ hst => stranded_step cfg s t e hs hst) h]

/-- A module that was in and is out again cannot be loaded. -/
theorem reload_iff_run : ∃ t,
    run (systemStep sampleConfig) (fun _ _ => true) (System.booted 0 ⟨true, false, true⟩)
        [.load ⟨false, fun _ => false⟩, .load allGranted, .tick 600, .unload] = some t ∧
      ¬ (t.driver = none → (t.init sampleConfig allGranted).2.2 = 0) := by
  have hsome : (run (systemStep sampleConfig) (fun _ _ => true) (System.booted 0 ⟨true, false, true⟩)
      [.load ⟨false, fun _ => false⟩, .load allGranted, .tick 600, .unload]).isSome = true := by
    decide
  obtain ⟨t, ht⟩ := Option.isSome_iff_exists.mp hsome
  refine ⟨t, ht, fun hload => ?_⟩
  have hmeets := (reload_iff sampleConfig 0 _ _ t ht).mp hload
  exact (((hmeets.2 _ rfl).2 _ rfl).2 _ rfl).1

end DevKota.Lab4
