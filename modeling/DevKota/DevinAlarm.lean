import DevKota.DevinDriver
import DevKota.Lab3Invariant

/-! The older driver is a single alarm: one message that falls due. What its runs preserve, with
no bound on the messages that are written to it. -/
namespace DevKota.Devin
open CString Kernel Runs
open Lab3 (Config pad byteAt setByte myStrcpy myStrcmp parseSec parseMsg accepted)

structure State where
  now : ℕ
  driver : Driver

inductive Event
  | tick (ticks : ℕ)
  | write (current : Task) (buf : UserBuf)
  | async (pid : ℕ) (on : Bool)
  | fire
  | read

/-- One atomic event. The timer fires at some instant not before it is due. -/
def step (cfg : Config) (s : State) : Event → Option State
  | .tick ticks => some { s with now := s.now + ticks }
  | .write current buf => some { s with driver := (s.driver.mytimerWrite cfg s.now current buf).1 }
  | .async pid on => some { s with driver := s.driver.mytimerAsync pid on }
  | .fire =>
    if s.driver.timer.timer.Expired s.now then
      s.driver.expire.map fun r => { s with driver := r.1 }
    else none
  | .read => some s

def loaded (now : ℕ) : State := ⟨now, Driver.mytimerInit now⟩

inductive Command
  | list
  | set
  | other
  deriving DecidableEq

def commandOf (buf : UserBuf) : Command :=
  if (pad 150 buf.bytes).getD 1 0 = 108 then .list
  else if (pad 150 buf.bytes).getD 1 0 = 115 then .set
  else .other

structure Alarm where
  msg : List Byte
  deadline : ℕ
  deriving DecidableEq

/-- What the component is for: an alarm, and who asked for one last. -/
structure Board where
  now : ℕ
  alarm : Option Alarm
  callerPid : ℕ
  callerComm : List Byte
  deriving DecidableEq

/-- A set command moves a running alarm only when it names its message, and finds a message
only when that fits the array with its NUL. -/
def alarmSet (m : List Byte) (deadline : ℕ) : Option Alarm → Alarm
  | none => ⟨m, deadline⟩
  | some a => if a.msg = m ∧ m.length ≤ 127 then ⟨m, deadline⟩ else a

/-- The steps of the board, labelled with the events of the driver. -/
def boardStep (cfg : Config) (b : Board) : Event → Option Board
  | .tick ticks => some { b with now := b.now + ticks }
  | .write current buf =>
    if accepted buf ∧ commandOf buf = .set then
      some { b with
        alarm := alarmSet (parseMsg (pad 150 buf.bytes))
          (b.now + (parseSec (pad 150 buf.bytes)).toNat*cfg.HZ) b.alarm
        callerPid := current.pid
        callerComm := current.comm }
    else some b
  | .async _ _ => some b
  | .fire => (b.alarm.filter fun a => a.deadline ≤ b.now).map fun _ => { b with alarm := none }
  | .read => some b

def blankBoard (now : ℕ) : Board := ⟨now, none, 0, []⟩

/-- The seconds shown for the alarm: none for a message that cannot be found, and those of a
32-bit difference once it is overdue. -/
def Board.expiration (cfg : Config) (b : Board) : ℕ :=
  match b.alarm with
  | some a =>
    if a.msg.length ≤ 127 then (((a.deadline:ℤ) - b.now) % 2^32).toNat / cfg.HZ else 0
  | none => 0

def Board.report (cfg : Config) (load : ℕ) (b : Board) : List Byte :=
  ascii "module: mytimer\nload timer: " ++
    decimal (cfg.jiffiesToMsecs (jiffies b.now - jiffies load)).toNat ++
    ascii " ms\ncalling pid: " ++ decimal b.callerPid ++ ascii "\ncommand: " ++ b.callerComm ++
    ascii "\nexpiration: " ++ decimal (b.expiration cfg) ++ ascii " s\n"

def Driver.alarm (d : Driver) : Option Alarm :=
  if d.timer.timer.pending then some ⟨d.timer.msg, d.timer.timer.due⟩ else none

def board (s : State) : Board :=
  ⟨s.now, s.driver.alarm, s.driver.callingProcess, cstr s.driver.callingCommand.bytes⟩

section Strings

/-- A copy of at most 128 bytes to `timer_msg`: the NUL of the longest lands on the flag. -/
theorem myStrcpy_storeMsg (s : List Byte) (hs : 0 ∉ s) (i : ℕ) (t : TimerInfo)
    (h : i + s.length ≤ 128) :
    myStrcpy TimerInfo.storeMsg s i t =
      { t with
        timerMsg := myStrcpy Buffer.set s i t.timerMsg
        active := if i + s.length = 128 then setByte t.active 0 0 else t.active } := by
  induction s generalizing i t with
  | nil =>
    simp only [List.length_nil, Nat.add_zero] at h
    by_cases hi : i < 128
    · have hne : i ≠ 128 := by omega
      simp [myStrcpy, TimerInfo.storeMsg, hi, hne]
    · -- the array is full: a store there is outside of it
      obtain rfl : i = 128 := by omega
      have hset : t.timerMsg.set 128 0 = t.timerMsg := by
        have hbytes : (t.timerMsg.set 128 0).bytes = t.timerMsg.bytes :=
          List.set_eq_of_length_le (by rw [t.timerMsg.length_eq])
        cases ht : t.timerMsg.set 128 0
        rw [ht] at hbytes
        subst hbytes
        rfl
      simp [myStrcpy, TimerInfo.storeMsg, hset]
  | cons c s ih =>
    have hc : c ≠ 0 := fun hz => hs (by simp [hz])
    simp only [List.length_cons] at h
    have hi : i < 128 := by omega
    have hlen : i + 1 + s.length = i + (s.length + 1) := by omega
    rw [myStrcpy, if_pos hc, ih (fun hz => hs (List.mem_cons_of_mem _ hz)) _ _ (by omega),
      myStrcpy, if_pos hc, List.length_cons]
    simp [TimerInfo.storeMsg, hi, hlen]

/-- A copy that fills the array leaves no NUL in it. -/
theorem myStrcpy_full {n : ℕ} (s : List Byte) (hs : 0 ∉ s) (i : ℕ) (b : Buffer n)
    (h : i + s.length = n) : (myStrcpy Buffer.set s i b).bytes = b.bytes.take i ++ s := by
  induction s generalizing i b with
  | nil =>
    have hi : b.bytes.length ≤ i := by rw [b.length_eq]; simpa using h.ge
    simp [myStrcpy, List.set_eq_of_length_le hi, List.take_of_length_le hi]
  | cons c s ih =>
    have hc : c ≠ 0 := fun hz => hs (by simp [hz])
    simp only [List.length_cons] at h
    have hi : i < b.bytes.length := by rw [b.length_eq]; omega
    have htake : (b.set i c).bytes.take (i+1) = b.bytes.take i ++ [c] := by
      simp [List.take_add_one, List.take_set_of_le, hi]
    rw [myStrcpy, if_pos hc, ih (fun hz => hs (List.mem_cons_of_mem _ hz)) _ _ (by omega), htake]
    simp

end Strings

/-- What holds of the module's data at every point of a run. -/
structure Inv (load : ℕ) (d : Driver) : Prop where
  count : d.numberActiveTimers = if d.timer.timer.pending then 1 else 0
  pending_of_active : d.timer.Active → d.timer.timer.pending = true
  active_iff : d.timer.timer.pending = true → (d.timer.Active ↔ d.timer.msg.length ≤ 127)
  handler : d.timer.timer.pending = true → d.timer.timer.function = some .handler
  expires : d.timer.timer.pending = true → d.timer.timer.expires = jiffies d.timer.timer.due
  stray : d.timer.timer.stray = false
  load_time : d.moduleLoadTime = jiffies load

theorem inv_init (load : ℕ) : Inv load (Driver.mytimerInit load) where
  count := rfl
  pending_of_active h := absurd rfl h
  active_iff h := by cases h
  handler h := by cases h
  expires h := by cases h
  stray := rfl
  load_time := rfl

theorem inv_of_eq (load : ℕ) (d d' : Driver) (h : Inv load d) (ht : d'.timer = d.timer)
    (hn : d'.numberActiveTimers = d.numberActiveTimers)
    (hl : d'.moduleLoadTime = d.moduleLoadTime) : Inv load d' ∧ d'.alarm = d.alarm := by
  refine ⟨⟨?_, ?_, ?_, ?_, ?_, ?_, ?_⟩, ?_⟩
  · rw [hn, ht]; exact h.count
  · rw [ht]; exact h.pending_of_active
  · rw [ht]; exact h.active_iff
  · rw [ht]; exact h.handler
  · rw [ht]; exact h.expires
  · rw [ht]; exact h.stray
  · rw [hl]; exact h.load_time
  · rw [Driver.alarm, ht]; rfl

section Effects
variable (cfg : Config) (now load : ℕ) (d : Driver)

theorem alarm_of_pending (h : d.timer.timer.pending = true) :
    d.alarm = some ⟨d.timer.msg, d.timer.timer.due⟩ := if_pos h

theorem alarm_of_idle (h : d.timer.timer.pending = false) : d.alarm = none := by
  simp [Driver.alarm, h]

theorem fillTimer_eq (sec : Word) (m : List Byte) (t : TimerInfo) (hz : 0 ∉ m)
    (hl : m.length ≤ 128) :
    Driver.fillTimer cfg now sec m t =
      { timer := (t.timer.setup (some .handler)).modTimer now
          (jiffies now + sec * BitVec.ofNat 32 cfg.HZ)
        timerMsg := myStrcpy Buffer.set m 0 t.timerMsg
        active := if m.length = 128 then 0 else 1 } := by
  have hflag : setByte 1 0 0 = 0 := by decide
  unfold Driver.fillTimer Driver.arm
  simp only [Lab3.myStrcpy_cstr _ (pad 129 m), Lab3.cstr_pad _ _ hz]
  rw [myStrcpy_storeMsg _ hz 0 _ (by omega)]
  simp only [Nat.zero_add, hflag]

/-- A filled timer shows the whole message, and is marked active unless that has 128 bytes. -/
theorem fillTimer_msg (sec : Word) (m : List Byte) (t : TimerInfo) (hz : 0 ∉ m)
    (hl : m.length ≤ 128) :
    (Driver.fillTimer cfg now sec m t).msg = m ∧
      ((Driver.fillTimer cfg now sec m t).Active ↔ m.length ≤ 127) := by
  rw [fillTimer_eq cfg now sec m t hz hl]
  by_cases h128 : m.length = 128
  · refine ⟨?_, ?_⟩
    · -- the NUL of the message is the flag
      rw [TimerInfo.msg, TimerInfo.memoryFromMsg, if_pos h128, myStrcpy_full m hz 0 _ (by omega)]
      exact cstr_append_zero m _ hz
    · simp [TimerInfo.Active, h128]
  · refine ⟨?_, ?_⟩
    · rw [TimerInfo.msg, TimerInfo.memoryFromMsg, Lab3.cstr_myStrcpy_set m hz _ (by omega)]
    · simp [TimerInfo.Active, h128]
      omega

/-- Arming with parsed seconds: the exact deadline, and the word that stands for it. -/
theorem arm_due (userBuf : List Byte) (t : TimerInfo) :
    (Driver.arm cfg now (parseSec userBuf) t).timer.due = now + (parseSec userBuf).toNat*cfg.HZ ∧
      (Driver.arm cfg now (parseSec userBuf) t).timer.expires =
        jiffies (Driver.arm cfg now (parseSec userBuf) t).timer.due := by
  have hd := Lab3.due_parseSec cfg now userBuf
  change dueOf now _ = _ ∧ _ = jiffies (dueOf now _)
  rw [hd.1]
  exact ⟨rfl, hd.2⟩

theorem fillTimer_due (userBuf m : List Byte) (t : TimerInfo) :
    (Driver.fillTimer cfg now (parseSec userBuf) m t).timer.due =
        now + (parseSec userBuf).toNat*cfg.HZ ∧
      (Driver.fillTimer cfg now (parseSec userBuf) m t).timer.expires =
        jiffies (Driver.fillTimer cfg now (parseSec userBuf) m t).timer.due :=
  arm_due cfg now userBuf _

/-- `'s'` sets the alarm and notes the caller. -/
theorem writeSet_effect (current : Task) (userBuf : List Byte) (h : Inv load d) :
    Inv load (d.writeSet cfg now current userBuf) ∧
      (d.writeSet cfg now current userBuf).alarm =
        some (alarmSet (parseMsg userBuf) (now + (parseSec userBuf).toNat*cfg.HZ) d.alarm) ∧
      (d.writeSet cfg now current userBuf).callingProcess = current.pid ∧
      cstr (d.writeSet cfg now current userBuf).callingCommand.bytes = current.comm := by
  have hz := Lab3.parseMsg_zero userBuf
  have hl := Lab3.parseMsg_length userBuf
  have hcomm : cstr (myStrcpy Buffer.set (pad 16 current.comm) 0 d.callingCommand).bytes =
      current.comm := by
    have hlen := current.comm_length
    have hcopy := Lab3.cstr_myStrcpy_set current.comm current.comm_zero d.callingCommand
      (by omega) []
    rw [Lab3.myStrcpy_cstr, Lab3.cstr_pad _ _ current.comm_zero]
    simpa using hcopy
  have hcmp : myStrcmp d.timer.memoryFromMsg (pad 129 (parseMsg userBuf)) = 0 ↔
      d.timer.msg = parseMsg userBuf := by
    rw [Lab3.myStrcmp_eq_zero, Lab3.cstr_pad _ _ hz]
    rfl
  by_cases hp : d.timer.timer.pending = true
  · have halarm := alarm_of_pending d hp
    have hfull : ¬ d.numberActiveTimers < (allowedTimers : ℤ) := by
      rw [h.count, if_pos hp]
      decide
    by_cases hm : d.timer.msg = parseMsg userBuf ∧ d.timer.Active
    · -- the running alarm is found again and moved
      have hfit : d.timer.msg.length ≤ 127 := (h.active_iff hp).mp hm.2
      have hd := arm_due cfg now userBuf d.timer
      simp only [Driver.writeSet, hcmp, hm, and_self, if_true]
      refine ⟨⟨?_, fun _ => rfl, fun _ => h.active_iff hp, fun _ => h.handler hp, fun _ => hd.2,
        h.stray, h.load_time⟩, ?_, trivial, hcomm⟩
      · rw [h.count, if_pos hp]
        rfl
      · rw [halarm, alarmSet, if_pos ⟨hm.1, hm.1 ▸ hfit⟩, ← hm.1, ← hd.1]
        rfl
    · -- any other message is refused while it runs
      simp only [Driver.writeSet, hcmp, hm, if_false, hfull]
      refine ⟨?_, ?_, trivial, hcomm⟩
      · exact (inv_of_eq load d _ h (by rfl) (by rfl) (by rfl)).1
      · have hkeep : ¬ (d.timer.msg = parseMsg userBuf ∧ (parseMsg userBuf).length ≤ 127) :=
          fun hf => hm ⟨hf.1, (h.active_iff hp).mpr (hf.1 ▸ hf.2)⟩
        rw [halarm, alarmSet, if_neg hkeep]
        exact halarm
  · -- nothing runs, so the timer is free
    have hidle : d.timer.timer.pending = false := by simpa using hp
    have hfree : ¬ d.timer.Active := fun ha => hp (h.pending_of_active ha)
    have hroom : d.numberActiveTimers < (allowedTimers : ℤ) := by
      rw [h.count, if_neg hp]
      decide
    obtain ⟨hmsg, hact⟩ := fillTimer_msg cfg now (parseSec userBuf) _ d.timer hz hl
    have hd := fillTimer_due cfg now userBuf (parseMsg userBuf) d.timer
    have hset := fillTimer_eq cfg now (parseSec userBuf) _ d.timer hz hl
    simp only [Driver.writeSet, hfree, and_false, if_false, hroom, if_true, not_false_eq_true]
    refine ⟨⟨?_, fun _ => rfl, fun _ => ?_, fun _ => ?_, fun _ => hd.2, ?_, h.load_time⟩, ?_,
      trivial, hcomm⟩
    · rw [h.count, if_neg hp]
      rfl
    · rw [hmsg]
      exact hact
    · rw [hset]
      rfl
    -- the timer that is set up was not pending
    · rw [hset]
      simp [TimerList.modTimer, TimerList.setup, h.stray, hidle]
    · rw [alarm_of_idle d hidle, alarmSet]
      have hpend : (Driver.fillTimer cfg now (parseSec userBuf) (parseMsg userBuf)
          d.timer).timer.pending = true := rfl
      rw [alarm_of_pending _ hpend, hmsg, hd.1]

theorem writeList_effect (h : Inv load d) :
    Inv load (d.writeList cfg now) ∧ (d.writeList cfg now).alarm = d.alarm ∧
      (d.writeList cfg now).callingProcess = d.callingProcess ∧
      (d.writeList cfg now).callingCommand = d.callingCommand := by
  have hframe : (d.writeList cfg now).timer = d.timer ∧
      (d.writeList cfg now).numberActiveTimers = d.numberActiveTimers ∧
      (d.writeList cfg now).moduleLoadTime = d.moduleLoadTime ∧
      (d.writeList cfg now).callingProcess = d.callingProcess ∧
      (d.writeList cfg now).callingCommand = d.callingCommand := by
    unfold Driver.writeList
    split_ifs <;> exact ⟨rfl, rfl, rfl, rfl, rfl⟩
  obtain ⟨ht, hn, hl, hpid, hcomm⟩ := hframe
  obtain ⟨hinv, halarm⟩ := inv_of_eq load d _ h ht hn hl
  exact ⟨hinv, halarm, hpid, hcomm⟩

/-- Everything `mytimer_write` does, by the kind of write. -/
theorem mytimerWrite_eq (current : Task) (buf : UserBuf) :
    d.mytimerWrite cfg now current buf =
      if accepted buf then
        (match commandOf buf with
          | .list => d.writeList cfg now
          | .set => d.writeSet cfg now current (pad 150 buf.bytes)
          | .other => d, (buf.bytes.length:ℤ))
      else (d, if buf.bytes.length > 149 then -EINVAL else -EFAULT) := by
  unfold Driver.mytimerWrite accepted commandOf
  by_cases hl : buf.bytes.length > 150-1
  · have : ¬ buf.bytes.length ≤ 149 := by omega
    simp [this, hl]
  · have : buf.bytes.length ≤ 149 := by omega
    by_cases hm : buf.mapped = true
    · simp only [this, hl, hm, if_true, if_false, not_true_eq_false, and_self]
      split_ifs <;> rfl
    · simp [this, hl, hm]

/-- The firing of an armed timer ends the alarm and reaches every registered process. -/
theorem expire_effect (h : Inv load d) (hp : d.timer.timer.pending = true) :
    ∃ d', d.expire = some (d', d.asyncQueue) ∧ Inv load d' ∧ d'.alarm = none ∧
      d'.timer.timer.pending = false ∧ d'.callingProcess = d.callingProcess ∧
      d'.callingCommand = d.callingCommand ∧ d'.asyncQueue = d.asyncQueue := by
  refine ⟨{ d with
    timer := { d.timer with timer := d.timer.timer.delTimer, active := 0 }
    numberActiveTimers := d.numberActiveTimers - 1 }, ?_, ⟨?_, ?_, ?_, ?_, ?_, ?_, ?_⟩, rfl, rfl,
    rfl, rfl, rfl⟩
  · simp only [Driver.expire, h.handler hp, Driver.mytimerHandler]
  · rw [h.count, if_pos hp]
    rfl
  · exact fun ha => absurd rfl ha
  · intro hq
    cases hq
  · intro hq
    cases hq
  · intro hq
    cases hq
  · exact h.stray
  · exact h.load_time

end Effects

section Board
variable (cfg : Config) (load : ℕ) (s : State) (h : Inv load s.driver)
include h

theorem write_board (current : Task) (buf : UserBuf) :
    Inv load (s.driver.mytimerWrite cfg s.now current buf).1 ∧
      some (board { s with driver := (s.driver.mytimerWrite cfg s.now current buf).1 }) =
        boardStep cfg (board s) (.write current buf) := by
  rw [mytimerWrite_eq]
  by_cases ha : accepted buf
  · rw [if_pos ha]
    cases hc : commandOf buf with
    | list =>
      obtain ⟨hinv, halarm, hpid, hcomm⟩ := writeList_effect cfg s.now load s.driver h
      refine ⟨hinv, ?_⟩
      simp [board, boardStep, hc, halarm, hpid, hcomm]
    | set =>
      obtain ⟨hinv, halarm, hpid, hcomm⟩ :=
        writeSet_effect cfg s.now load s.driver current (pad 150 buf.bytes) h
      refine ⟨hinv, ?_⟩
      simp only [board, boardStep, ha, hc, halarm, hpid, hcomm, and_self, if_true]
    | other => exact ⟨h, by simp [board, boardStep, hc]⟩
  · rw [if_neg ha]
    exact ⟨h, by simp [board, boardStep, ha]⟩

/-- Every event is exactly a step of the board, and is enabled exactly when that step is. -/
theorem step_board (e : Event) :
    (∀ t, step cfg s e = some t → Inv load t.driver) ∧
      (step cfg s e).map board = boardStep cfg (board s) e := by
  cases e with
  | tick ticks =>
    refine ⟨fun t ht => ?_, rfl⟩
    obtain rfl := Option.some.inj ht
    exact h
  | write current buf =>
    obtain ⟨hinv, hboard⟩ := write_board cfg load s h current buf
    refine ⟨fun t ht => ?_, hboard⟩
    obtain rfl := Option.some.inj ht
    exact hinv
  | async pid on =>
    -- registrations do not touch what the board shows
    have hframe : (s.driver.mytimerAsync pid on).timer = s.driver.timer ∧
        (s.driver.mytimerAsync pid on).numberActiveTimers = s.driver.numberActiveTimers ∧
        (s.driver.mytimerAsync pid on).moduleLoadTime = s.driver.moduleLoadTime ∧
        (s.driver.mytimerAsync pid on).callingProcess = s.driver.callingProcess ∧
        (s.driver.mytimerAsync pid on).callingCommand = s.driver.callingCommand := by
      cases on <;> exact ⟨rfl, rfl, rfl, rfl, rfl⟩
    obtain ⟨ht, hn, hl, hpid, hcomm⟩ := hframe
    obtain ⟨hinv, halarm⟩ := inv_of_eq load s.driver _ h ht hn hl
    refine ⟨fun t ht => ?_, ?_⟩
    · obtain rfl := Option.some.inj ht
      exact hinv
    · simp [step, board, boardStep, halarm, hpid, hcomm]
  | fire =>
    -- on the board: an alarm that is due, one that is not, none
    by_cases hp : s.driver.timer.timer.pending = true
    · obtain ⟨d', hexp, hinv, hnone, -, hpid, hcomm, -⟩ := expire_effect load s.driver h hp
      have halarm := alarm_of_pending s.driver hp
      by_cases hdue : s.driver.timer.timer.due ≤ s.now
      · have hx : s.driver.timer.timer.Expired s.now := ⟨hp, hdue⟩
        refine ⟨fun t ht => ?_, ?_⟩
        · simp only [step, if_pos hx, hexp, Option.map_some] at ht
          obtain rfl := Option.some.inj ht
          exact hinv
        · simp [step, hx, hexp, board, boardStep, halarm, hdue, hnone, hpid, hcomm]
      · have hx : ¬ s.driver.timer.timer.Expired s.now := fun hx => hdue hx.2
        refine ⟨fun t ht => by simp [step, hx] at ht, ?_⟩
        simp only [step, hx, board, boardStep, halarm, hdue, if_false, Option.map_none,
          Option.filter_some, decide_false, Bool.false_eq_true]
    · have hx : ¬ s.driver.timer.timer.Expired s.now := fun hx => hp hx.1
      have halarm := alarm_of_idle s.driver (by simpa using hp)
      refine ⟨fun t ht => by simp [step, hx] at ht, ?_⟩
      simp [step, hx, board, boardStep, halarm]
  | read =>
    refine ⟨fun t ht => ?_, rfl⟩
    obtain rfl := Option.some.inj ht
    exact h

/-- The report shows what the board shows. -/
theorem report_board : s.driver.mytimerProcShow cfg s.now = (board s).report cfg load := by
  have hexp : (if s.driver.timer.Active then Driver.remaining cfg s.now s.driver.timer else 0) =
      (board s).expiration cfg := by
    unfold Board.expiration
    by_cases hp : s.driver.timer.timer.pending = true
    · have halarm : (board s).alarm = some ⟨s.driver.timer.msg, s.driver.timer.timer.due⟩ :=
        alarm_of_pending s.driver hp
      have hact := h.active_iff hp
      rw [halarm]
      by_cases hfit : s.driver.timer.msg.length ≤ 127
      · have hdiff := WrappedClock.shown_sub_toNat 32 s.driver.timer.timer.due s.now
        simp only [if_pos (hact.mpr hfit), if_pos hfit, Driver.remaining, h.expires hp, jiffies_eq]
        change _ = (((s.driver.timer.timer.due:ℤ) - s.now) % 2^32).toNat / _
        rw [← hdiff, Int.toNat_natCast]
      · simp only [if_neg (fun ha => hfit (hact.mp ha)), if_neg hfit]
    · have halarm : (board s).alarm = none := alarm_of_idle s.driver (by simpa using hp)
      rw [halarm, if_neg (fun ha => hp (h.pending_of_active ha))]
  rw [Driver.mytimerProcShow, Board.report, ← hexp, h.load_time]
  rfl

end Board

theorem inv_run (cfg : Config) (load : ℕ) (es : List Event) (t : State)
    (h : run (step cfg) (fun _ _ => true) (loaded load) es = some t) : Inv load t.driver :=
  run_invariant (I := fun s => Inv load s.driver)
    (fun s e u hi _ hu => (step_board cfg load s hi e).1 u hu) h (inv_init load)

theorem board_run (cfg : Config) (load : ℕ) (es : List Event) :
    (run (step cfg) (fun _ _ => true) (loaded load) es).map board =
      run (boardStep cfg) (fun _ _ => true) (blankBoard load) es :=
  run_simulates (I := fun s => Inv load s.driver) board
    (fun s e t hi ht => (step_board cfg load s hi e).1 t ht)
    (fun s e hi => (step_board cfg load s hi e).2) (inv_init load) es (s := loaded load)

/-- Along every run the driver is the board: the same events are possible, the alarm and the last
caller are the same, the report is the board's and the counter counts the alarm. -/
theorem driver_is_one_alarm (cfg : Config) (load : ℕ) (es : List Event) :
    (run (step cfg) (fun _ _ => true) (loaded load) es).map board =
        run (boardStep cfg) (fun _ _ => true) (blankBoard load) es ∧
      ∀ t, run (step cfg) (fun _ _ => true) (loaded load) es = some t →
        t.driver.mytimerProcShow cfg t.now = (board t).report cfg load ∧
        t.driver.numberActiveTimers = (if (board t).alarm.isSome then 1 else 0) := by
  refine ⟨board_run cfg load es, fun t ht => ?_⟩
  have hinv := inv_run cfg load es t ht
  refine ⟨report_board cfg load t hinv, ?_⟩
  rw [hinv.count]
  change _ = if t.driver.alarm.isSome then 1 else 0
  by_cases hp : t.driver.timer.timer.pending = true
  · rw [if_pos hp, alarm_of_pending _ hp]
    rfl
  · rw [if_neg hp, alarm_of_idle _ (by simpa using hp)]
    rfl

/-- A caller and its writes, to execute the machine on. -/
def sampleWrite (pid : ℕ) (hp : 0 < pid ∧ pid < 2^31) (text : List Byte) : Event :=
  .write (Lab3.sampleTask pid hp) ⟨text ++ [0], true⟩

def sampleRun : List Event :=
  [sampleWrite 41 (by decide) (ascii "-s 5 bob"), .tick 100,
    sampleWrite 42 (by decide) (ascii "-s 9 al"),
    .tick 400, .fire, sampleWrite 43 (by decide) (ascii "-s 2 " ++ List.replicate 128 97)]

set_option maxRecDepth 8192 in
/-- An alarm, a refused command, the firing, and a message that fills its array. -/
theorem driver_is_one_alarm_run : ∃ t,
    run (step Lab3.sampleConfig) (fun _ _ => true) (loaded 0) sampleRun = some t ∧
      t.driver.mytimerProcShow Lab3.sampleConfig t.now =
        Board.report Lab3.sampleConfig 0
          ⟨500, some ⟨List.replicate 128 97, 700⟩, 43, ascii "ktimer"⟩ := by
  obtain ⟨hsim, hreport⟩ := driver_is_one_alarm Lab3.sampleConfig 0 sampleRun
  have hboard : run (boardStep Lab3.sampleConfig) (fun _ _ => true) (blankBoard 0) sampleRun =
      some ⟨500, some ⟨List.replicate 128 97, 700⟩, 43, ascii "ktimer"⟩ := by decide +kernel
  rw [hboard] at hsim
  obtain ⟨t, ht, hb⟩ := Option.map_eq_some_iff.mp hsim
  refine ⟨t, ht, ?_⟩
  rw [(hreport t ht).1, hb]

/-- Unloading stops the timer, and the counter goes to zero, exactly when no message of 128 bytes
is waiting: the flag that the loop looks at was overwritten by its NUL. -/
theorem mytimerExit_stops_iff (cfg : Config) (load : ℕ) (es : List Event) (t : State)
    (h : run (step cfg) (fun _ _ => true) (loaded load) es = some t) :
    (t.driver.mytimerExit.timer.timer.pending = false ∧
        t.driver.mytimerExit.numberActiveTimers = 0) ↔
      ∀ a, (board t).alarm = some a → a.msg.length ≤ 127 := by
  have hinv := inv_run cfg load es t h
  have hcount := hinv.count
  by_cases hp : t.driver.timer.timer.pending = true
  · have halarm : (board t).alarm = some ⟨t.driver.timer.msg, t.driver.timer.timer.due⟩ :=
      alarm_of_pending t.driver hp
    rw [hp, if_pos rfl] at hcount
    constructor
    · intro hstop a ha
      rw [halarm] at ha
      obtain rfl := Option.some.inj ha
      -- the NUL behind a message of 128 bytes has cleared the flag, so the exit passes it by
      by_contra hlong
      have hact : ¬ t.driver.timer.Active := fun hact => hlong ((hinv.active_iff hp).mp hact)
      simp [Driver.mytimerExit, hact, hp] at hstop
    · intro hfit
      have hact := (hinv.active_iff hp).mpr (hfit _ halarm)
      simp [Driver.mytimerExit, hact, hp, hcount]
  · have halarm : (board t).alarm = none := alarm_of_idle t.driver (by simpa using hp)
    rw [if_neg hp] at hcount
    simp [Driver.mytimerExit, hp, hcount, halarm]

set_option maxRecDepth 8192 in
theorem mytimerExit_stops_iff_run : ∃ t,
    run (step Lab3.sampleConfig) (fun _ _ => true) (loaded 0)
      [sampleWrite 41 (by decide) (ascii "-s 5 " ++ List.replicate 128 97)] = some t ∧
      ¬ (t.driver.mytimerExit.timer.timer.pending = false ∧
        t.driver.mytimerExit.numberActiveTimers = 0) := by
  have hsim := board_run Lab3.sampleConfig 0
    [sampleWrite 41 (by decide) (ascii "-s 5 " ++ List.replicate 128 97)]
  have hboard : run (boardStep Lab3.sampleConfig) (fun _ _ => true) (blankBoard 0)
      [sampleWrite 41 (by decide) (ascii "-s 5 " ++ List.replicate 128 97)] =
        some ⟨0, some ⟨List.replicate 128 97, 500⟩, 41, ascii "ktimer"⟩ := by decide +kernel
  rw [hboard] at hsim
  obtain ⟨t, ht, hb⟩ := Option.map_eq_some_iff.mp hsim
  refine ⟨t, ht, fun hstop => ?_⟩
  have hfit := (mytimerExit_stops_iff Lab3.sampleConfig 0 _ t ht).mp hstop
  rw [hb] at hfit
  have hlen := hfit _ rfl
  rw [List.length_replicate] at hlen
  omega

end DevKota.Devin
