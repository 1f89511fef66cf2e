import DevKota.Kernel

/-! The lab3 driver: a character device with at most two message timers. -/
namespace DevKota.Lab3
open CString Kernel

/-- What the kernel build fixes. -/
structure Config where
  HZ : ℕ
  HZ_pos : 0 < HZ
  HZ_le : HZ ≤ 1000
  jiffiesToMsecs : Word → Word

abbrev maxTimers : ℕ := 2

inductive Handler
  | handler0
  | handler1
  deriving DecidableEq

structure TimerInfo where
  timer : TimerList Handler
  ownerPid : ℕ
  callingCommand : Buffer 16
  timerMsg : Buffer 128
  active : Word
  deriving DecidableEq

/-- The contents of a zero-filled array of `n` bytes after a string was stored at its head. -/
def pad (n : ℕ) (s : List Byte) : List Byte := s ++ List.replicate (n-s.length) 0

def byteAt (w : Word) (k : ℕ) : Byte := (w >>> (8*k)).toNat.toUInt8

def setByte (w : Word) (k : ℕ) (b : Byte) : Word :=
  (w &&& ~~~(0xff#32 <<< (8*k))) ||| (BitVec.ofNat 32 b.toNat <<< (8*k))

namespace TimerInfo

/-- The bytes from `timer_msg` to the end of the structure: the array, then `active`. -/
def memoryFromMsg (t : TimerInfo) : List Byte :=
  t.timerMsg.bytes ++ [byteAt t.active 0, byteAt t.active 1, byteAt t.active 2, byteAt t.active 3]

def memoryFromCommand (t : TimerInfo) : List Byte := t.callingCommand.bytes ++ t.memoryFromMsg

/-- A store at `timer_msg[i]`. Past the array it lands in `active`. -/
def storeMsg (t : TimerInfo) (i : ℕ) (b : Byte) : TimerInfo :=
  if i < 128 then { t with timerMsg := t.timerMsg.set i b }
  else if i < 132 then { t with active := setByte t.active (i-128) b }
  else t

/-- A store at `calling_command[i]`. Past the array it lands in `timer_msg`. -/
def storeCommand (t : TimerInfo) (i : ℕ) (b : Byte) : TimerInfo :=
  if i < 16 then { t with callingCommand := t.callingCommand.set i b }
  else t.storeMsg (i-16) b

def msg (t : TimerInfo) : List Byte := cstr t.memoryFromMsg

def command (t : TimerInfo) : List Byte := cstr t.memoryFromCommand

def Active (t : TimerInfo) : Prop := t.active ≠ 0

instance (t : TimerInfo) : Decidable t.Active := inferInstanceAs (Decidable (_ ≠ _))

end TimerInfo

/-- `my_strcpy`: the source is the memory it reads, the destination a way to store. -/
def myStrcpy {σ : Type} (store : σ → ℕ → Byte → σ) : List Byte → ℕ → σ → σ
  -- the destination's size is never looked at
  | c :: src, i, m => if c ≠ 0 then myStrcpy store src (i+1) (store m i c) else store m i 0
  | [], i, m => store m i 0

/-- `my_strcmp` on the memory behind both pointers. -/
def myStrcmp : List Byte → List Byte → ℤ
  | a :: s, b :: t => if a ≠ 0 ∧ a = b then myStrcmp s t else (a.toNat:ℤ) - b.toNat
  | a :: _, [] => a.toNat
  | [], b :: _ => -(b.toNat:ℤ)
  | [], [] => 0

def myAtoiDigits : Word → List Byte → Word
  | result, c :: s =>
    if 48 ≤ c ∧ c ≤ 57 then myAtoiDigits (result*10 + BitVec.ofNat 32 (c.toNat-48)) s else result
  | result, [] => result

def myAtoi (seconds : List Byte) : Word :=
  -- blank, tab, newline
  let result := myAtoiDigits 0 (seconds.dropWhile fun c => c = 32 || c = 9 || c = 10)
  if (0#32).slt result then result else 0

structure Driver where
  timers : Fin maxTimers → TimerInfo
  allowedTimers : ℤ
  numberActiveTimers : ℤ
  kernelOut : Buffer 1000
  moduleLoadTime : Word

namespace Driver

def setTimer (d : Driver) (k : Fin maxTimers) (t : TimerInfo) : Driver :=
  { d with timers := Function.update d.timers k t }

/-- Static data at module load. -/
def mytimerInit (now : ℕ) : Driver where
  timers _ := ⟨TimerList.zeroed, 0, Buffer.zero 16, Buffer.zero 128, 0⟩
  allowedTimers := 1
  numberActiveTimers := 0
  kernelOut := Buffer.zero 1000
  moduleLoadTime := jiffies now

/-- One pass of the clean-up loops: `timers[i]` is stopped if it is armed and active. -/
def stopTimer (t : TimerInfo) : TimerInfo :=
  if t.timer.pending ∧ t.Active then { t with timer := t.timer.delTimer, active := 0 } else t

/-- One pass of the loop of `mytimer_exit`, which runs to `allowed_timers` and not to the
array size. -/
def exitPass (d : Driver) (i : Fin maxTimers) : Driver :=
  if (i.val:ℤ) < d.allowedTimers ∧ (d.timers i).timer.pending ∧ (d.timers i).Active then
    { d.setTimer i (stopTimer (d.timers i)) with numberActiveTimers := d.numberActiveTimers - 1 }
  else d

def mytimerExit (d : Driver) : Driver := (List.finRange maxTimers).foldl exitPass d

def writeRemove (d : Driver) : Driver :=
  { d with timers := fun i => stopTimer (d.timers i), numberActiveTimers := 0 }

def writeCapacity (d : Driver) (userBuf : List Byte) : Driver :=
  -- '1' and '2'; anything else is ignored
  if userBuf.getD 3 0 = 49 then { d with allowedTimers := 1 }
  else if userBuf.getD 3 0 = 50 then { d with allowedTimers := 2 }
  else d

end Driver

/-- The seconds loop of `mytimer_write`, with the room left in `c_sec`: the characters it
copies and the rest of the buffer. -/
def secLoop : ℕ → List Byte → List Byte × List Byte
  | room+1, c :: rest =>
    if c ≠ 32 ∧ c ≠ 0 then (c :: (secLoop room rest).1, (secLoop room rest).2) else ([], c :: rest)
  | _, rest => ([], rest)

/-- The message loop, with the room left in `user_msg`. -/
def msgLoop : ℕ → List Byte → List Byte
  | room+1, c :: rest => if c ≠ 0 then c :: msgLoop room rest else []
  | _, _ => []

/-- `if(user_buf[i] == ' ') i++`. -/
def skipBlank : List Byte → List Byte
  | c :: rest => if c = 32 then rest else c :: rest
  | [] => []

def parseSec (userBuf : List Byte) : Word := myAtoi (pad 6 (secLoop 5 (userBuf.drop 3)).1)

def parseMsg (userBuf : List Byte) : List Byte :=
  msgLoop 128 (skipBlank (secLoop 5 (userBuf.drop 3)).2)

namespace Driver

/-- The first active slot that holds the message. -/
def findMsg (d : Driver) (userMsg : List Byte) : Option (Fin maxTimers) :=
  (List.finRange maxTimers).find? fun k =>
    myStrcmp (d.timers k).memoryFromMsg (pad 129 userMsg) = 0 ∧ (d.timers k).Active

def findInactive (d : Driver) : Option (Fin maxTimers) :=
  (List.finRange maxTimers).find? fun k => ¬ (d.timers k).Active

def handlerFor (i : Fin maxTimers) : Handler := if i = 0 then .handler0 else .handler1

/-- The stores made for a new timer, in the order of the source. -/
def fillTimer (cfg : Config) (now : ℕ) (current : Task) (i : Fin maxTimers) (sec : Word)
    (userMsg : List Byte) (t : TimerInfo) : TimerInfo :=
  let t := { t with active := 1 }
  -- a message of 128 bytes puts its NUL on the flag just set
  let t := myStrcpy TimerInfo.storeMsg (pad 129 userMsg) 0 t
  let t := { t with ownerPid := current.pid }
  let t := myStrcpy TimerInfo.storeCommand (pad 16 current.comm) 0 t
  let t := { t with timer := t.timer.setup (some (handlerFor i)) }
  { t with timer := t.timer.modTimer now (jiffies now + sec * BitVec.ofNat 32 cfg.HZ) }

def updateTimer (cfg : Config) (now : ℕ) (sec : Word) (t : TimerInfo) : TimerInfo :=
  { t with timer := t.timer.modTimer now (jiffies now + sec * BitVec.ofNat 32 cfg.HZ) }

def writeSet (cfg : Config) (now : ℕ) (current : Task) (d : Driver) (userBuf : List Byte) :
    Driver :=
  match d.findMsg (parseMsg userBuf) with
  | some k =>
    { d.setTimer k (updateTimer cfg now (parseSec userBuf) (d.timers k)) with
      kernelOut := Buffer.zero 1000 }
  | none =>
    if d.numberActiveTimers < d.allowedTimers then
      match d.findInactive with
      | some i =>
        { d.setTimer i (fillTimer cfg now current i (parseSec userBuf) (parseMsg userBuf)
            (d.timers i)) with
          numberActiveTimers := d.numberActiveTimers + 1
          kernelOut := Buffer.zero 1000 }
      | none => d
    else d

/-- The new state and the return value. -/
def mytimerWrite (cfg : Config) (now : ℕ) (current : Task) (d : Driver) (buf : UserBuf) :
    Driver × ℤ :=
  if buf.bytes.length > 150-1 then (d, -EINVAL)
  else if ¬ buf.mapped then (d, -EFAULT)
  else
    let userBuf := pad 150 buf.bytes
    let count : ℤ := buf.bytes.length
    -- 'r', 'm', 's'
    if userBuf.getD 1 0 = 114 then (d.writeRemove, count)
    else if userBuf.getD 1 0 = 109 then (d.writeCapacity userBuf, count)
    else if userBuf.getD 1 0 = 115 then (d.writeSet cfg now current userBuf, count)
    else (d, count)

/-- `send_wakeup_call`: the pid whose task, if there is one, gets SIGIO. -/
def sendWakeupCall (t : TimerInfo) : ℕ := t.ownerPid

/-- `mytimer_handler_0` and `mytimer_handler_1`, with the index each has written into it. -/
def mytimerHandler (k : Fin maxTimers) (d : Driver) : Driver × ℕ :=
  -- counted down whether or not the slot is marked active
  let d := { d with numberActiveTimers := d.numberActiveTimers - 1 }
  let d := d.setTimer k { d.timers k with active := 0 }
  (d, sendWakeupCall (d.timers k))

def mytimerHandler0 (d : Driver) : Driver × ℕ := mytimerHandler 0 d

def mytimerHandler1 (d : Driver) : Driver × ℕ := mytimerHandler 1 d

/-- The kernel detaches an expired timer and calls its function. -/
def expire (d : Driver) (k : Fin maxTimers) : Option (Driver × ℕ) :=
  let d' := d.setTimer k { d.timers k with timer := (d.timers k).timer.delTimer }
  match (d.timers k).timer.function with
  | some .handler0 => some d'.mytimerHandler0
  | some .handler1 => some d'.mytimerHandler1
  | none => none

/-- The number printed for a timer, `(expires - jiffies) / HZ`. -/
def remaining (cfg : Config) (now : ℕ) (t : TimerInfo) : ℕ :=
  (t.timer.expires - jiffies now).toNat / cfg.HZ

/-- One line of the listing. -/
def listingLine (cfg : Config) (now : ℕ) (t : TimerInfo) : List Byte :=
  t.msg ++ ascii " " ++ decimal (remaining cfg now t) ++ ascii "\n"

def trailer (d : Driver) : List Byte :=
  ascii " " ++ decimalInt d.numberActiveTimers ++ ascii " " ++ decimalInt d.allowedTimers

/-- `prepare_read_msg`: the buffer and the running offset through the loop. -/
def prepareReadMsg (cfg : Config) (now : ℕ) (d : Driver) : Driver :=
  let r := (List.finRange maxTimers).foldl (fun (acc : Buffer 1000 × ℕ) i =>
    if (d.timers i).Active then
      -- `snprintf` returns the full length, also of a text it cut
      (acc.1.snprintf acc.2 (listingLine cfg now (d.timers i)),
        acc.2 + (listingLine cfg now (d.timers i)).length)
    else acc) (d.kernelOut, 0)
  { d with kernelOut := r.1.snprintf r.2 d.trailer }

/-- `mytimer_read`: the new state, the bytes copied out and the new file position. -/
def mytimerRead (cfg : Config) (now : ℕ) (d : Driver) (count pos : ℕ) :
    Driver × List Byte × ℕ :=
  let d := d.prepareReadMsg cfg now
  let text := cstr d.kernelOut.bytes
  if text.length ≤ pos then (d, [], pos)
  else (d, (text.drop pos).take count, pos + min count (text.length - pos))

end Driver

end DevKota.Lab3
