import DevKota.KernelStrings

/-! The lab2 driver: message timers in a table of configurable size. An operation that
touches memory it does not own has no result. -/
namespace DevKota.Lab2
open CString Kernel

structure Config where
  HZ : ℕ
  HZ_pos : 0 < HZ
  HZ_le : HZ ≤ 1000

inductive Callback
  | timerCb
  deriving DecidableEq

/-- A `char *`: what `kmalloc` left in a fresh structure, NULL, or a block with the string
that was copied into it. -/
inductive Pointer
  | junk
  | null
  | block (id : ℕ) (text : List Byte)
  deriving DecidableEq

structure MsgTimer where
  timer : TimerList Callback
  message : Pointer
  deriving DecidableEq

/-- An array of timers and the block it lies in. An array of no bytes has none: `kmalloc` then
returns `ZERO_SIZE_PTR`. -/
structure Table where
  block : Option ℕ
  slots : List MsgTimer
  deriving DecidableEq

/-- The driver's globals, and what the kernel keeps for it: every table that was allocated,
the next block, the blocks that were freed and the log. -/
structure Driver where
  gNumTimers : ℤ
  gTimers : Option ℕ
  tables : List Table
  nextBlock : ℕ
  freed : List ℕ
  log : List (List Byte)
  deriving DecidableEq

/-- `sizeof(struct msg_timer)`: a `timer_list` of five words and a pointer. -/
def sizeofMsgTimer : ℕ := 24

/-- What `create_timers` asks `kmalloc` for: the count as an `unsigned`, and a product that
wraps. -/
def kmallocSize (numTimers : ℤ) : ℕ := (numTimers % 2^32).toNat*sizeofMsgTimer % 2^32

/-- A slot after `timer_setup(.., NULL, 0)`; its message is still what the block held. -/
def freshSlot : MsgTimer := ⟨TimerList.zeroed, .junk⟩

namespace Driver

/-- The string behind a pointer, if it may be read. -/
def deref (d : Driver) : Pointer → Option (List Byte)
  | .block id text => if id ∈ d.freed then none else some text
  | _ => none

/-- `kfree`: NULL is allowed, a block only once. -/
def kfree (d : Driver) : Pointer → Option Driver
  | .null => some d
  | .block id _ => if id ∈ d.freed then none else some { d with freed := id :: d.freed }
  | .junk => none

/-- The slot at index `i` of the table at place `t`. -/
def slot (d : Driver) (t i : ℕ) : Option MsgTimer := d.tables[t]?.bind fun tb => tb.slots[i]?

def setSlot (d : Driver) (t i : ℕ) (s : MsgTimer) : Driver :=
  { d with tables := d.tables.modify t fun tb => { tb with slots := tb.slots.set i s } }

/-- What the loops `for (i = 0; i < g_num_timers; i++)` go over. -/
def current (d : Driver) : Option (List MsgTimer) :=
  if d.gNumTimers ≤ 0 then some []
  else
    d.gTimers.bind fun t => d.tables[t]?.bind fun tb =>
      if d.gNumTimers ≤ tb.slots.length then some (tb.slots.take d.gNumTimers.toNat) else none

/-- `create_timers`, with the outcome of its `kmalloc`, which cannot fail for a size of zero. The
size wraps in 32 bits; the loop of `timer_init` then leaves the block. -/
def createTimers (d : Driver) (numTimers : ℤ) (alloc : Bool) : Option (Driver × ℤ) :=
  -- both globals are overwritten before the allocation is looked at
  let d := { d with gNumTimers := numTimers }
  let size := kmallocSize numTimers
  if ¬ alloc ∧ size ≠ 0 then some ({ d with gTimers := none }, -1)
  else
    let slots := size / sizeofMsgTimer
    if (slots:ℤ) < numTimers then none
    else
      some ({ d with
        gTimers := some d.tables.length
        tables := d.tables ++
          [⟨if size = 0 then none else some d.nextBlock, List.replicate slots freshSlot⟩]
        nextBlock := if size = 0 then d.nextBlock else d.nextBlock + 1 }, 0)

/-- `set_timer`, with the outcome of its `kmalloc`. -/
def setTimer (cfg : Config) (now : ℕ) (d : Driver) (index seconds : ℤ) (message : List Byte)
    (alloc : Bool) : Option (Driver × ℤ) :=
  if index < 0 ∨ d.gNumTimers ≤ index then some (d, -EINVAL)
  else
    d.gTimers.bind fun t => (d.slot t index.toNat).bind fun s =>
      -- the slot counts as used from here on, also when the allocation fails
      let s := { s with timer.function := some .timerCb }
      if ¬ alloc then some (d.setSlot t index.toNat { s with message := .null }, -ENOMEM)
      else
        let s := { s with message := .block d.nextBlock message }
        let wasPending : ℤ := if s.timer.pending then 1 else 0
        let expires := jiffies now + BitVec.ofInt 32 seconds * BitVec.ofNat 32 cfg.HZ
        let s := { s with timer := s.timer.modTimer now expires }
        some ({ d.setSlot t index.toNat s with nextBlock := d.nextBlock + 1 }, wasPending)

/-- The first loop of `find_available_timer`. -/
def findMessage (d : Driver) (message : List Byte) : ℕ → List MsgTimer → Option (Option ℕ)
  | _, [] => some none
  | i, s :: slots =>
    if s.timer.function.isSome then
      (d.deref s.message).bind fun text =>
        if text = message then some (some i) else findMessage d message (i+1) slots
    else findMessage d message (i+1) slots

/-- The second loop of `find_available_timer`. -/
def findFree : ℕ → List MsgTimer → Option ℕ
  | _, [] => none
  | i, s :: slots => if s.timer.function.isNone then some i else findFree (i+1) slots

def findAvailableTimer (d : Driver) (message : List Byte) : Option ℤ :=
  d.current.bind fun slots => (d.findMessage message 0 slots).map fun found =>
    match found with
    | some i => i
    | none => match findFree 0 slots with
      | some i => i
      | none => -ENOMEM

/-- `parse_control_input`. `kstrtol` is given NULL when there is no `=`. -/
def parseControlInput (d : Driver) (input : List Byte) (alloc : Bool) : Option (Driver × ℤ) :=
  let r := strsep 61 input
  if r.1 = ascii "COUNT" then
    r.2.bind fun number =>
      match kstrtol number with
      | .error e => some (d, e)
      | .ok numTimers => d.createTimers numTimers alloc
  else some (d, -EINVAL)

/-- `parse_timer_input`. -/
def parseTimerInput (cfg : Config) (now : ℕ) (d : Driver) (input : List Byte) (alloc : Bool) :
    Option (Driver × ℤ) :=
  if input.head? = some 94 then d.parseControlInput (input.drop 1) alloc
  else
    let r := strsep 32 input
    match kstrtol r.1 with
    | .error e => some (d, e)
    | .ok seconds =>
      match r.2 with
      -- `strsep` returns NULL once the cursor is NULL
      | none => some (d, -EINVAL)
      | some rest =>
        let message := (strsep 10 rest).1
        (d.findAvailableTimer message).bind fun index =>
          -- a full table is no error to the writer
          if 0 ≤ index then d.setTimer cfg now index seconds message alloc else some (d, 0)

/-- `timer_write`: the new state and the return value. -/
def timerWrite (cfg : Config) (now : ℕ) (d : Driver) (buf : UserBuf) (alloc : Bool) :
    Option (Driver × ℤ) :=
  if buf.bytes.length > 128 then some (d, -EINVAL)
  else if ¬ buf.mapped then some (d, -EFAULT)
  else
    -- `kbuf[count] = 0`; behind 128 bytes that store lies one byte outside `kbuf`
    (d.parseTimerInput cfg now (cstr (buf.bytes ++ [0])) alloc).map fun r =>
      (r.1, if r.2 < 0 then r.2 else buf.bytes.length)

/-- The number printed for a timer: an unsigned quotient taken as an `int`, then clamped. -/
def remaining (cfg : Config) (now : ℕ) (s : MsgTimer) : ℤ :=
  max (BitVec.ofNat 32 ((s.timer.expires - jiffies now).toNat / cfg.HZ)).toInt 0

def activeLine (cfg : Config) (now : ℕ) (s : MsgTimer) (text : List Byte) : List Byte :=
  text ++ ascii " " ++ decimalInt (remaining cfg now s) ++ ascii "\n"

/-- The lines of the active slots; each message is read by both loops. -/
def activeLines (cfg : Config) (now : ℕ) (d : Driver) : List MsgTimer → Option (List (List Byte))
  | [] => some []
  | s :: slots =>
    if s.timer.function.isSome then
      (d.deref s.message).bind fun text =>
        (activeLines cfg now d slots).map fun lines => activeLine cfg now s text :: lines
    else activeLines cfg now d slots

/-- `get_active_timers`, with the outcome of its `kmalloc`; the inner `none` is NULL. -/
def getActiveTimers (cfg : Config) (now : ℕ) (d : Driver) (alloc : Bool) :
    Option (Option (List Byte)) :=
  d.current.bind fun slots => (activeLines cfg now d slots).map fun lines =>
    if lines = [] ∨ ¬ alloc then none else some lines.flatten

/-- `check_for_room`. -/
def checkForRoom (d : Driver) : Option Byte :=
  d.current.map fun slots => if slots.any (·.timer.function.isNone) then 49 else 48

/-- `timer_cb` on the timer at one slot. `printk` shows a NULL message as `(null)`. -/
def timerCb (d : Driver) (t i : ℕ) : Option Driver :=
  (d.slot t i).bind fun s =>
    (match s.message with
      | .null => some (ascii "(null)")
      | p => d.deref p).bind fun text =>
    let d := { d with log := d.log ++ [text] }
    let d := d.setSlot t i { s with timer.function := none }
    -- the slot keeps the freed pointer
    d.kfree s.message

/-- The kernel detaches an expired timer and calls its function. -/
def expire (d : Driver) (t i : ℕ) : Option Driver :=
  (d.slot t i).bind fun s =>
    match s.timer.function with
    | some .timerCb => (d.setSlot t i { s with timer := s.timer.delTimer }).timerCb t i
    | none => none

/-- `my_module_init`, which does not look at the result of `create_timers(1)`. -/
def myModuleInit (alloc : Bool) : Driver :=
  match (⟨0, none, [], 0, [], []⟩ : Driver).createTimers 1 alloc with
  | some r => r.1
  | none => ⟨0, none, [], 0, [], []⟩

end Driver

structure State where
  now : ℕ
  driver : Driver
  deriving DecidableEq

inductive Event
  | tick (ticks : ℕ)
  | write (buf : UserBuf) (alloc : Bool)
  | fire (t i : ℕ)

/-- One atomic event. A timer fires at some instant not before it is due. -/
def step (cfg : Config) (s : State) : Event → Option State
  | .tick ticks => some { s with now := s.now + ticks }
  | .write buf alloc =>
    (s.driver.timerWrite cfg s.now buf alloc).map fun r => { s with driver := r.1 }
  | .fire t i =>
    if ((s.driver.slot t i).any fun m => m.timer.Expired s.now) = true then
      (s.driver.expire t i).map fun d => { s with driver := d }
    else none

def loaded (now : ℕ) (alloc : Bool) : State := ⟨now, Driver.myModuleInit alloc⟩

end DevKota.Lab2
