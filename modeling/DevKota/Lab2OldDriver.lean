import DevKota.Lab2Driver

/-! The first version of the lab2 driver: a table of one timer, which has to run off before the
next one can be set. The blocks of memory are kept as in the later driver. -/
namespace DevKota.Lab2Old
open CString Kernel
open Lab2 (Config Pointer)

/-- `g_timer_cbs`. With one timer only its first entry is used. -/
inductive Callback
  | timerCb0
  deriving DecidableEq

/-- The module's globals, and what the kernel keeps for it: the block of the table, the next
block, the blocks that were freed and the log. -/
structure Driver where
  gNumTimers : ℤ
  timer : TimerList Callback -- g_timers[0]
  gTimerMessage : Pointer -- g_timer_messages[0]
  table : ℕ
  nextBlock : ℕ
  freed : List ℕ
  log : List (List Byte)
  deriving DecidableEq

namespace Driver

/-- The string behind a pointer, if it may be read. -/
def deref (d : Driver) : Pointer → Option (List Byte)
  | .block id text => if id ∈ d.freed then none else some text
  | _ => none

/-- `kfree`: NULL is allowed, a block only once, and nothing else. -/
def kfree (d : Driver) : Pointer → Option Driver
  | .null => some d
  | .block id _ => if id ∈ d.freed then none else some { d with freed := id :: d.freed }
  | .junk => none

/-- The table of one timer after `timers_init`. -/
def fresh : Driver := ⟨1, TimerList.zeroed.setup none, .null, 0, 1, [], []⟩

/-- `my_module_init` with the outcomes of `kmalloc` and `misc_register`. The result of
`create_timers` is not looked at, and `timers_init` then goes through NULL. -/
def myModuleInit (alloc registered : Bool) : Option (Driver × ℤ) :=
  if ¬ alloc then none else some (fresh, if registered then 0 else -EBUSY)

/-- `set_timer`, with the outcome of its `kmalloc`. -/
def setTimer (cfg : Config) (now : ℕ) (d : Driver) (index seconds : ℤ) (message : List Byte)
    (alloc : Bool) : Driver × ℤ :=
  if index < 0 ∨ d.gNumTimers ≤ index then (d, -EINVAL)
  else
    -- the timer counts as used from here on, also when the allocation fails
    let d := { d with timer := { d.timer with function := some .timerCb0 } }
    if ¬ alloc then ({ d with gTimerMessage := .null }, -ENOMEM)
    else
      let d := { d with gTimerMessage := .block d.nextBlock message, nextBlock := d.nextBlock + 1 }
      let wasPending : ℤ := if d.timer.pending then 1 else 0
      let expires := jiffies now + BitVec.ofInt 32 seconds * BitVec.ofNat 32 cfg.HZ
      ({ d with timer := d.timer.modTimer now expires }, wasPending)

def findAvailableTimer (d : Driver) : ℤ := if d.timer.function.isNone then 0 else -ENOMEM

/-- `parse_timer_input`. -/
def parseTimerInput (cfg : Config) (now : ℕ) (d : Driver) (input : List Byte) (alloc : Bool) :
    Driver × ℤ :=
  let r := strsep 32 input
  match kstrtol r.1 with
  | .error e => (d, e)
  | .ok seconds =>
    match r.2 with
    -- `strsep` returns NULL once the cursor is NULL
    | none => (d, -EINVAL)
    | some rest =>
      let message := (strsep 10 rest).1
      let index := d.findAvailableTimer
      if 0 ≤ index then d.setTimer cfg now index seconds message alloc else (d, -ENOMEM)

/-- `timer_write`: the new state and the return value. -/
def timerWrite (cfg : Config) (now : ℕ) (d : Driver) (buf : UserBuf) (alloc : Bool) :
    Driver × ℤ :=
  if buf.bytes.length > 128 then (d, -EINVAL)
  else if ¬ buf.mapped then (d, -EFAULT)
  else
    -- `kbuf[count] = '\0'`; behind 128 bytes that store lies one byte outside `kbuf`
    let r := d.parseTimerInput cfg now (cstr (buf.bytes ++ [0])) alloc
    (r.1, if r.2 < 0 then r.2 else buf.bytes.length)

/-- `timer_cb0`. -/
def timerCb0 (d : Driver) : Option Driver :=
  (d.deref d.gTimerMessage).bind fun text =>
    let d := { d with log := d.log ++ [text] }
    let d := { d with timer := { d.timer with function := none } }
    -- the freed pointer stays where it is
    d.kfree d.gTimerMessage

/-- The kernel detaches an expired timer and calls its function. -/
def expire (d : Driver) : Option Driver :=
  match d.timer.function with
  | some .timerCb0 => { d with timer := d.timer.delTimer }.timerCb0
  | none => none

/-- `(char *)g_timers[i].function`: the address of a function is no block. -/
def functionPointer : Option Callback → Pointer
  | none => .null
  | some _ => .junk

/-- `timers_destroy`. The callback is freed, and not the message. -/
def timersDestroy (d : Driver) : Option Driver :=
  let d := { d with timer := d.timer.delTimer }
  (d.kfree (functionPointer d.timer.function)).bind fun d => d.kfree (.block d.table [])

end Driver

/-- The text that every reader gets. -/
def fixedText : List Byte :=
  ascii "How am I supposed to know what kind of timers you have set up?\n"

/-- `timer_read` into a mapped buffer: the bytes and the new position. -/
def timerRead (count pos : ℕ) : List Byte × ℕ :=
  if fixedText.length ≤ pos then ([], pos)
  else ((fixedText.drop pos).take count, pos + min count (fixedText.length - pos))

/-- The same as a read of the device, which keeps nothing. -/
def timerReadFrom (count pos : ℕ) : Unit × List Byte × ℕ := ((), timerRead count pos)

structure State where
  now : ℕ
  driver : Driver
  deriving DecidableEq

inductive Event
  | tick (ticks : ℕ)
  | write (buf : UserBuf) (alloc : Bool)
  | fire

/-- One atomic event. The timer fires at some instant not before it is due. -/
def step (cfg : Config) (s : State) : Event → Option State
  | .tick ticks => some { s with now := s.now + ticks }
  | .write buf alloc => some { s with driver := (s.driver.timerWrite cfg s.now buf alloc).1 }
  | .fire =>
    if s.driver.timer.Expired s.now then s.driver.expire.map fun d => { s with driver := d }
    else none

/-- After a load that succeeded. -/
def loaded (now : ℕ) : State := ⟨now, Driver.fresh⟩

end DevKota.Lab2Old
