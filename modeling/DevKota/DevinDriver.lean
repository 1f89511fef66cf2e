import DevKota.Lab3Write

/-! The older `mytimer` driver: one message timer, and a SIGIO to every process that has asked
for it. Its string loops are those of the lab3 driver. -/
namespace DevKota.Devin
open CString Kernel
open Lab3 (Config pad byteAt setByte myStrcpy myStrcmp parseSec parseMsg)

inductive Handler
  | handler
  deriving DecidableEq

structure TimerInfo where
  timer : TimerList Handler
  timerMsg : Buffer 128
  active : Word
  deriving DecidableEq

namespace TimerInfo

/-- The bytes from `timer_msg` to the end of the structure. -/
def memoryFromMsg (t : TimerInfo) : List Byte :=
  t.timerMsg.bytes ++ [byteAt t.active 0, byteAt t.active 1, byteAt t.active 2, byteAt t.active 3]

/-- A store at `timer_msg[i]`. Past the array it lands in `active`. -/
def storeMsg (t : TimerInfo) (i : ℕ) (b : Byte) : TimerInfo :=
  if i < 128 then { t with timerMsg := t.timerMsg.set i b }
  else if i < 132 then { t with active := setByte t.active (i-128) b }
  else t

def msg (t : TimerInfo) : List Byte := cstr t.memoryFromMsg

def Active (t : TimerInfo) : Prop := t.active ≠ 0

instance (t : TimerInfo) : Decidable t.Active := inferInstanceAs (Decidable (_ ≠ _))

end TimerInfo

/-- The module's data. There is one timer, so each loop over the timers is one pass. -/
structure Driver where
  timer : TimerInfo
  numberActiveTimers : ℤ
  callingProcess : ℕ
  callingCommand : Buffer 16
  kernelOut : Buffer 1000
  moduleLoadTime : Word
  asyncQueue : List ℕ -- the pids that the registered files belong to

/-- Set at load and never again. -/
def allowedTimers : ℕ := 1

namespace Driver

/-- Static data at module load. -/
def mytimerInit (now : ℕ) : Driver where
  timer := ⟨TimerList.zeroed, Buffer.zero 128, 0⟩
  numberActiveTimers := 0
  callingProcess := 0
  callingCommand := Buffer.zero 16
  kernelOut := Buffer.zero 1000
  moduleLoadTime := jiffies now
  asyncQueue := []

def mytimerExit (d : Driver) : Driver :=
  if d.timer.timer.pending ∧ d.timer.Active then
    { d with
      timer := { d.timer with timer := d.timer.timer.delTimer, active := 0 }
      numberActiveTimers := d.numberActiveTimers - 1 }
  else d

/-- `(expires - jiffies) / HZ`. -/
def remaining (cfg : Config) (now : ℕ) (t : TimerInfo) : ℕ :=
  (t.timer.expires - jiffies now).toNat / cfg.HZ

/-- The `'l'` branch fills a buffer that no read ever returns. -/
def writeList (cfg : Config) (now : ℕ) (d : Driver) : Driver :=
  let kernelOut := Buffer.zero 1000
  if d.timer.Active then
    { d with
      kernelOut := kernelOut.snprintf 0
        (d.timer.msg ++ ascii " " ++ decimal (remaining cfg now d.timer) ++ ascii "\n") }
  else { d with kernelOut := kernelOut }

/-- `mod_timer(&timers[k].timer, jiffies + sec * HZ)`. -/
def arm (cfg : Config) (now : ℕ) (sec : Word) (t : TimerInfo) : TimerInfo :=
  { t with timer := t.timer.modTimer now (jiffies now + sec * BitVec.ofNat 32 cfg.HZ) }

/-- The stores made for a new timer, in the order of the source. -/
def fillTimer (cfg : Config) (now : ℕ) (sec : Word) (userMsg : List Byte) (t : TimerInfo) :
    TimerInfo :=
  let t := { t with active := 1 }
  -- a message of 128 bytes puts its NUL on the flag just set
  let t := myStrcpy TimerInfo.storeMsg (pad 129 userMsg) 0 t
  let t := { t with timer := t.timer.setup (some .handler) }
  arm cfg now sec t

def writeSet (cfg : Config) (now : ℕ) (current : Task) (d : Driver) (userBuf : List Byte) :
    Driver :=
  -- the caller is noted before anything is decided
  let d := { d with
    callingProcess := current.pid
    callingCommand := myStrcpy Buffer.set (pad 16 current.comm) 0 d.callingCommand }
  if myStrcmp d.timer.memoryFromMsg (pad 129 (parseMsg userBuf)) = 0 ∧ d.timer.Active then
    { d with
      timer := arm cfg now (parseSec userBuf) d.timer
      kernelOut := (Buffer.zero 1000).snprintf 0
        (ascii "The timer " ++ d.timer.msg ++ ascii " was updated!\n") }
  else if d.numberActiveTimers < (allowedTimers : ℤ) then
    if ¬ d.timer.Active then
      { d with
        timer := fillTimer cfg now (parseSec userBuf) (parseMsg userBuf) d.timer
        numberActiveTimers := d.numberActiveTimers + 1
        kernelOut := Buffer.zero 1000 }
    else d
  else
    { d with
      kernelOut := (Buffer.zero 1000).snprintf 0
        (decimal allowedTimers ++ ascii " timer(s) already exist(s)!\n") }

/-- The new state and the return value. -/
def mytimerWrite (cfg : Config) (now : ℕ) (current : Task) (d : Driver) (buf : UserBuf) :
    Driver × ℤ :=
  if buf.bytes.length > 150-1 then (d, -EINVAL)
  else if ¬ buf.mapped then (d, -EFAULT)
  else
    let userBuf := pad 150 buf.bytes
    let count : ℤ := buf.bytes.length
    -- 'l' and 's'
    if userBuf.getD 1 0 = 108 then (d.writeList cfg now, count)
    else if userBuf.getD 1 0 = 115 then (d.writeSet cfg now current userBuf, count)
    else (d, count)

/-- `mytimer_async`: the file of this process enters the queue or leaves it. -/
def mytimerAsync (d : Driver) (pid : ℕ) (on : Bool) : Driver :=
  if on then { d with asyncQueue := d.asyncQueue.insert pid }
  else { d with asyncQueue := d.asyncQueue.erase pid }

/-- The new state and the pids that `kill_fasync` sends SIGIO to. -/
def mytimerHandler (d : Driver) : Driver × List ℕ :=
  let d := { d with
    numberActiveTimers := d.numberActiveTimers - 1
    timer := { d.timer with active := 0 } }
  (d, d.asyncQueue)

/-- The kernel detaches the expired timer and calls its function. -/
def expire (d : Driver) : Option (Driver × List ℕ) :=
  let d' := { d with timer := { d.timer with timer := d.timer.timer.delTimer } }
  match d.timer.timer.function with
  | some .handler => some d'.mytimerHandler
  | none => none

/-- `mytimer_proc_show`. The device file shows the same text. -/
def mytimerProcShow (cfg : Config) (now : ℕ) (d : Driver) : List Byte :=
  let expiration := if d.timer.Active then remaining cfg now d.timer else 0
  ascii "module: mytimer\nload timer: " ++
    decimal (cfg.jiffiesToMsecs (jiffies now - d.moduleLoadTime)).toNat ++
    ascii " ms\ncalling pid: " ++ decimal d.callingProcess ++
    ascii "\ncommand: " ++ cstr d.callingCommand.bytes ++
    ascii "\nexpiration: " ++ decimal expiration ++ ascii " s\n"

end Driver

end DevKota.Devin
