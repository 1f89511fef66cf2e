import DevKota.Kernel

/-! The lab4 driver: a traffic light on three output pins, driven by a periodic timer and by
writes to a character device. -/
namespace DevKota.Lab4
open CString Kernel

structure Config where
  HZ : ℕ
  HZ_pos : 0 < HZ
  HZ_le : HZ ≤ 1000

inductive Pin
  | RED
  | GREEN
  | YELLOW
  deriving DecidableEq

/-- The values of the three outputs. -/
structure Lamps where
  red : Bool
  green : Bool
  yellow : Bool
  deriving DecidableEq

inductive Callback
  | timerCallback
  deriving DecidableEq

/-- `struct timer_info`. -/
structure TimerInfo where
  timer : TimerList Callback
  mode : Word
  iteration : Word
  deriving DecidableEq

def NORMAL : Word := 0
def FLASH_RED : Word := 1
def FLASH_YELLOW : Word := 2

structure Driver where
  lamps : Lamps
  timer : TimerInfo
  deriving DecidableEq

namespace Driver

/-- `gpio_set_value` and `gpio_direction_output`. -/
def gpioSetValue (d : Driver) (pin : Pin) (value : Bool) : Driver :=
  match pin with
  | .RED => { d with lamps.red := value }
  | .GREEN => { d with lamps.green := value }
  | .YELLOW => { d with lamps.yellow := value }

def gpioGetValue (d : Driver) : Pin → Bool
  | .RED => d.lamps.red
  | .GREEN => d.lamps.green
  | .YELLOW => d.lamps.yellow

/-- `mod_timer(&timer.timer, jiffies + sec * HZ)`, with one second. -/
def rearm (cfg : Config) (now : ℕ) (d : Driver) : Driver :=
  { d with timer.timer := d.timer.timer.modTimer now (jiffies now + 1 * BitVec.ofNat 32 cfg.HZ) }

def normalMode (cfg : Config) (now : ℕ) (d : Driver) : Driver :=
  let d := { d with timer.timer := d.timer.timer.setup (some .timerCallback) }
  let d := { d with timer.mode := NORMAL }
  d.rearm cfg now

/-- `traffic_mode`: every mode falls back to the normal one. -/
def trafficMode (cfg : Config) (now : ℕ) (mode : Word) (d : Driver) : Driver :=
  if mode = NORMAL then d.normalMode cfg now else d.normalMode cfg now

/-- `mytraffic_init` on zeroed memory, with the lamps as they were found and the pins that
`gpio_request` grants. -/
def mytrafficInit (cfg : Config) (now : ℕ) (found : Lamps) (granted : Pin → Bool) : Driver × ℤ :=
  let d : Driver := ⟨found, ⟨TimerList.zeroed, 0, 0⟩⟩
  if ¬ granted .RED then (d, -EINVAL)
  else
    let d := d.gpioSetValue .RED false
    if ¬ granted .YELLOW then (d, -EINVAL)
    else
      let d := d.gpioSetValue .YELLOW false
      if ¬ granted .GREEN then (d, -EINVAL)
      else
        let d := d.gpioSetValue .GREEN false
        (d.trafficMode cfg now NORMAL, 0)

/-- The cycle that `timer_callback` steps through, which stands in both branches of its
`switch`: four ticks green, one yellow, one red. -/
def cycle (d : Driver) : Driver :=
  let iteration := d.timer.iteration
  if iteration.toNat ≤ 3 then
    let d := ((d.gpioSetValue .GREEN true).gpioSetValue .YELLOW false).gpioSetValue .RED false
    { d with timer.iteration := iteration + 1 }
  else if iteration.toNat = 4 then
    let d := ((d.gpioSetValue .GREEN false).gpioSetValue .YELLOW true).gpioSetValue .RED false
    { d with timer.iteration := iteration + 1 }
  else
    let d := ((d.gpioSetValue .GREEN false).gpioSetValue .YELLOW false).gpioSetValue .RED true
    { d with timer.iteration := 0 }

def timerCallback (cfg : Config) (now : ℕ) (d : Driver) : Driver :=
  let d := if d.timer.mode = NORMAL then d.cycle else d.cycle
  d.rearm cfg now

/-- The kernel detaches an expired timer and calls its function. -/
def expire (cfg : Config) (now : ℕ) (d : Driver) : Option Driver :=
  match d.timer.timer.function with
  | some .timerCallback =>
    some ({ d with timer.timer := d.timer.timer.delTimer }.timerCallback cfg now)
  | none => none

/-- `my_write`, with the outcome of its `kmalloc`: the new state and the return value. -/
def myWrite (d : Driver) (buf : UserBuf) (alloc : Bool) : Driver × ℤ :=
  if ¬ alloc then (d, -ENOMEM)
  else if ¬ buf.mapped then (d, -EFAULT)
  else
    let inputData := buf.bytes ++ [0]
    -- '0', '1' and '2' switch one lamp on and none off; an empty write starts with the NUL
    let d :=
      if inputData.head? = some 48 then d.gpioSetValue .RED true
      else if inputData.head? = some 49 then d.gpioSetValue .GREEN true
      else if inputData.head? = some 50 then d.gpioSetValue .YELLOW true
      else ((d.gpioSetValue .RED false).gpioSetValue .GREEN false).gpioSetValue .YELLOW false
    (d, (BitVec.ofNat 32 buf.bytes.length).toInt)

end Driver

structure State where
  now : ℕ
  driver : Driver
  deriving DecidableEq

inductive Event
  | tick (ticks : ℕ)
  | write (buf : UserBuf) (alloc : Bool)
  | fire

/-- One atomic event. The timer fires at some instant not before it is due. -/
def step (cfg : Config) (s : State) : Event → Option State
  | .tick ticks => some { s with now := s.now + ticks }
  | .write buf alloc => some { s with driver := (s.driver.myWrite buf alloc).1 }
  | .fire =>
    if s.driver.timer.timer.Expired s.now then
      (s.driver.expire cfg s.now).map fun d => { s with driver := d }
    else none

/-- The state that a load of the module leaves when it succeeds. -/
def Loaded (cfg : Config) (s : State) : Prop :=
  ∃ found granted, Driver.mytrafficInit cfg s.now found granted = (s.driver, 0)

end DevKota.Lab4
