import DevKota.Lab3Strings
import DevKota.SlotMap

/-! One lemma for each operation of the lab3 driver on its two slots. -/
namespace DevKota.Lab3
open CString Kernel SlotMap

/-- What the driver keeps for a message. -/
structure Entry where
  deadline : ℕ
  ownerPid : ℕ
  ownerCommand : List Byte

/-- Both strings of a slot end inside their arrays. -/
def TimerInfo.Terminated (t : TimerInfo) : Prop :=
  0 ∈ t.timerMsg.bytes ∧ 0 ∈ t.callingCommand.bytes

def TimerInfo.entry (t : TimerInfo) : Entry := ⟨t.timer.due, t.ownerPid, t.command⟩

/-- A slot as a place of a bounded map: free, or holding its message. -/
def TimerInfo.slot (t : TimerInfo) : Option (List Byte × Entry) :=
  if t.Active then some (t.msg, t.entry) else none

def Driver.slots (d : Driver) : Table maxTimers (List Byte) Entry := fun k => (d.timers k).slot

theorem slot_eq_none (t : TimerInfo) : t.slot = none ↔ ¬ t.Active := by
  simp [TimerInfo.slot]

theorem slot_of_active (t : TimerInfo) (h : t.Active) : t.slot = some (t.msg, t.entry) :=
  if_pos h

theorem msg_of_terminated (t : TimerInfo) (h : t.Terminated) :
    t.msg = cstr t.timerMsg.bytes := cstr_append_of_mem _ _ h.1

theorem zero_not_mem_msg (t : TimerInfo) : 0 ∉ t.msg := zero_not_mem_cstr _

theorem msg_length_le (t : TimerInfo) (h : t.Terminated) : t.msg.length ≤ 127 := by
  rw [msg_of_terminated t h]
  have := cstr_length_lt _ h.1
  rw [t.timerMsg.length_eq] at this
  omega

@[simp] theorem setTimer_timers (d : Driver) (k : Fin maxTimers) (t : TimerInfo) :
    (d.setTimer k t).timers = Function.update d.timers k t := rfl
@[simp] theorem setTimer_allowed (d : Driver) (k : Fin maxTimers) (t : TimerInfo) :
    (d.setTimer k t).allowedTimers = d.allowedTimers := rfl
@[simp] theorem setTimer_number (d : Driver) (k : Fin maxTimers) (t : TimerInfo) :
    (d.setTimer k t).numberActiveTimers = d.numberActiveTimers := rfl

@[simp] theorem writeCapacity_timers (d : Driver) (userBuf : List Byte) :
    (d.writeCapacity userBuf).timers = d.timers := by
  unfold Driver.writeCapacity
  split_ifs <;> rfl

theorem slots_update (f : Fin maxTimers → TimerInfo) (k : Fin maxTimers) (t : TimerInfo) :
    (fun i => (Function.update f k t i).slot) = Function.update (fun i => (f i).slot) k t.slot := by
  funext i
  simp only [Function.update_apply]
  split_ifs <;> rfl

section Parse

theorem secLoop_length (room : ℕ) (s : List Byte) : (secLoop room s).1.length ≤ room := by
  induction room generalizing s with
  | zero => simp [secLoop]
  | succ room ih =>
    cases s with
    | nil => simp [secLoop]
    | cons c s =>
      simp only [secLoop]
      split_ifs
      · have := ih s
        simpa using this
      · simp

theorem secLoop_zero (room : ℕ) (s : List Byte) : 0 ∉ (secLoop room s).1 := by
  induction room generalizing s with
  | zero => simp [secLoop]
  | succ room ih =>
    cases s with
    | nil => simp [secLoop]
    | cons c s =>
      simp only [secLoop]
      split_ifs with h
      · have := ih s
        simp only [List.mem_cons, not_or]
        exact ⟨Ne.symm h.2, this⟩
      · simp

/-- The message loop copies the string at its place, up to the room it has. -/
theorem msgLoop_eq (room : ℕ) (s : List Byte) : msgLoop room s = (cstr s).take room := by
  induction room generalizing s with
  | zero => simp [msgLoop]
  | succ room ih =>
    cases s with
    | nil => rfl
    | cons c s =>
      rw [msgLoop, cstr_cons]
      by_cases hc : c = 0
      · simp [hc]
      · simp [hc, ih]

theorem parseMsg_zero (userBuf : List Byte) : 0 ∉ parseMsg userBuf := by
  rw [parseMsg, msgLoop_eq]
  exact fun h => zero_not_mem_cstr _ (List.mem_of_mem_take h)

theorem parseMsg_length (userBuf : List Byte) : (parseMsg userBuf).length ≤ 128 := by
  rw [parseMsg, msgLoop_eq, List.length_take]
  exact min_le_left _ _

/-- Reading `k` characters on a value below `10^j` stays below `10^(j+k)`. -/
theorem myAtoiDigits_lt (r : Word) (s : List Byte) (j k : ℕ) (hs : (cstr s).length ≤ k)
    (hr : r.toNat < 10^j) (hjk : j + k ≤ 9) : (myAtoiDigits r s).toNat < 10^(j+k) := by
  induction s generalizing r j k with
  | nil => exact lt_of_lt_of_le hr (Nat.pow_le_pow_right (by decide) (by omega))
  | cons c s ih =>
    have hstop : r.toNat < 10^(j+k) :=
      lt_of_lt_of_le hr (Nat.pow_le_pow_right (by decide) (by omega))
    rw [myAtoiDigits]
    split_ifs with hc
    · have hc0 : c ≠ 0 := by rintro rfl; exact absurd hc.1 (by decide)
      rw [cstr_cons, if_neg hc0, List.length_cons] at hs
      have hd : c.toNat - 48 ≤ 9 := by
        have := UInt8.le_iff_toNat_le.mp hc.2
        simp at this
        omega
      -- with at most 9 digits in all nothing wraps in 32 bits
      have hj : 10^j ≤ 10^8 := Nat.pow_le_pow_right (by decide) (by omega)
      have hval : (r*10 + BitVec.ofNat 32 (c.toNat-48)).toNat = r.toNat*10 + (c.toNat-48) := by
        have h10 : (10 : Word).toNat = 10 := rfl
        rw [BitVec.toNat_add, BitVec.toNat_mul, BitVec.toNat_ofNat, h10]
        omega
      have hnext : (r*10 + BitVec.ofNat 32 (c.toNat-48)).toNat < 10^(j+1) := by
        rw [hval, Nat.pow_succ]
        omega
      have h := ih _ (j+1) (k-1) (by omega) hnext (by omega)
      rwa [show j+1+(k-1) = j+k by omega] at h
    · exact hstop

theorem isDigit_iff (c : Byte) : isDigit c = true ↔ 48 ≤ c ∧ c ≤ 57 := by
  simp [isDigit]

theorem digit_ne (c b : Byte) (hc : isDigit c = true) (hb : isDigit b = false) : c ≠ b := by
  intro h
  rw [h, hb] at hc
  cases hc

/-- Reading digits in 32 bits is exact as long as their count keeps the value below a turn. -/
theorem myAtoiDigits_digits (r : Word) (s rest : List Byte) (hs : ∀ c ∈ s, isDigit c = true)
    (hrest : ∀ c ∈ rest.head?, isDigit c = false) (hr : (r.toNat+1)*10^s.length ≤ 2^31) :
    (myAtoiDigits r (s ++ rest)).toNat = digitRun r.toNat s := by
  induction s generalizing r with
  | nil =>
    cases rest with
    | nil => rfl
    | cons c rest =>
      have hc : isDigit c = false := hrest c (by simp)
      have hstop : ¬ (48 ≤ c ∧ c ≤ 57) := by
        rw [← isDigit_iff, hc]
        simp
      rw [List.nil_append, myAtoiDigits, if_neg hstop]
      rfl
  | cons c s ih =>
    have hc : isDigit c = true := hs c (by simp)
    have hd : c.toNat - 48 ≤ 9 := by
      have hle := UInt8.le_iff_toNat_le.mp ((isDigit_iff c).mp hc).2
      have h57 : (57 : Byte).toNat = 57 := rfl
      omega
    rw [List.length_cons, Nat.pow_succ] at hr
    -- one more digit: at most ten times the value, which the room for the rest allows
    have hroom : (r.toNat*10 + (c.toNat-48) + 1)*10^s.length ≤ 2^31 := by
      calc
        _ ≤ ((r.toNat+1)*10)*10^s.length := Nat.mul_le_mul_right _ (by omega)
        _ = (r.toNat+1)*(10^s.length*10) := by ring
        _ ≤ 2^31 := hr
    have hpow : 0 < 10^s.length := Nat.pow_pos (by decide)
    have hbig : r.toNat*10 + (c.toNat-48) + 1 ≤ 2^31 :=
      (Nat.le_mul_of_pos_right _ hpow).trans hroom
    have hval : (r*10 + BitVec.ofNat 32 (c.toNat-48)).toNat = r.toNat*10 + (c.toNat-48) := by
      have h10 : (10 : Word).toNat = 10 := rfl
      rw [BitVec.toNat_add, BitVec.toNat_mul, BitVec.toNat_ofNat, h10]
      omega
    rw [List.cons_append, myAtoiDigits, if_pos ((isDigit_iff c).mp hc), digitRun, if_pos hc]
    rw [ih _ (fun b hb => hs b (by simp [hb])) (by rw [hval]; exact hroom), hval]

/-- `my_atoi` gives the value that its loop reads, as long as it is no negative `int`. -/
theorem myAtoi_toNat (s : List Byte) (n : ℕ)
    (h : (myAtoiDigits 0 (s.dropWhile fun c => c = 32 || c = 9 || c = 10)).toNat = n)
    (hn : n < 2^31) : (myAtoi s).toNat = n := by
  simp only [myAtoi]
  split_ifs with hpos
  · exact h
  · -- a value below half the word's range that is not positive is zero
    have hint : (myAtoiDigits 0 (s.dropWhile fun c => c = 32 || c = 9 || c = 10)).toInt = n := by
      rw [BitVec.toInt_eq_toNat_of_lt (by omega), h]
    have hle : ¬ 0 < n := by
      intro hnat
      apply hpos
      rw [BitVec.slt_iff_toInt_lt, hint, BitVec.toInt_zero]
      exact_mod_cast hnat
    have hzero : (0 : Word).toNat = 0 := rfl
    rw [hzero]
    omega

theorem cstr_dropWhile_length (p : Byte → Bool) (s : List Byte) (hp : p 0 = false) :
    (cstr (s.dropWhile p)).length ≤ (cstr s).length := by
  induction s with
  | nil => rfl
  | cons c s ih =>
    by_cases hc : p c = true
    · have hc0 : c ≠ 0 := by rintro rfl; rw [hp] at hc; cases hc
      rw [List.dropWhile_cons_of_pos hc, cstr_cons, if_neg hc0, List.length_cons]
      omega
    · rw [List.dropWhile_cons_of_neg hc]

/-- The digit cap of the seconds field bounds the parsed value. -/
theorem parseSec_lt (userBuf : List Byte) : (parseSec userBuf).toNat < 100000 := by
  have hcs := cstr_pad 6 _ (secLoop_zero 5 (userBuf.drop 3))
  have hlen := secLoop_length 5 (userBuf.drop 3)
  have h := myAtoiDigits_lt 0 _ 0 5
    ((cstr_dropWhile_length (fun c => c = 32 || c = 9 || c = 10)
      (pad 6 (secLoop 5 (userBuf.drop 3)).1) (by decide)).trans (by rw [hcs]; exact hlen))
    (by decide) (by decide)
  simp only [parseSec, myAtoi]
  split_ifs
  · simpa using h
  · simp

end Parse

section Fill
variable (cfg : Config)

/-- Arming a timer with parsed seconds gives the exact deadline. -/
theorem due_parseSec (now : ℕ) (userBuf : List Byte) :
    dueOf now (jiffies now + parseSec userBuf * BitVec.ofNat 32 cfg.HZ) =
        now + (parseSec userBuf).toNat*cfg.HZ ∧
      jiffies now + parseSec userBuf * BitVec.ofNat 32 cfg.HZ =
        jiffies (now + (parseSec userBuf).toNat*cfg.HZ) := by
  have hs := parseSec_lt userBuf
  have hz := cfg.HZ_le
  -- five digits at 1000 ticks a second stay within half the counter's range
  have hlt : (parseSec userBuf).toNat*cfg.HZ < 2^31 := by
    calc
      _ ≤ 99999*1000 := Nat.mul_le_mul (by omega) hz
      _ < 2^31 := by norm_num
  have hw : parseSec userBuf * BitVec.ofNat 32 cfg.HZ =
      BitVec.ofNat 32 ((parseSec userBuf).toNat*cfg.HZ) := by
    apply BitVec.eq_of_toNat_eq
    rw [BitVec.toNat_mul, BitVec.toNat_ofNat, BitVec.toNat_ofNat, Nat.mod_eq_of_lt (a := cfg.HZ)
      (by omega)]
  rw [hw, jiffies_add]
  exact ⟨dueOf_add _ _ hlt, rfl⟩

theorem fillTimer_eq (now : ℕ) (current : Task) (i : Fin maxTimers) (sec : Word)
    (userMsg : List Byte) (t : TimerInfo) (hz : 0 ∉ userMsg) (hl : userMsg.length ≤ 127) :
    Driver.fillTimer cfg now current i sec userMsg t =
      { timer := (t.timer.setup (some (Driver.handlerFor i))).modTimer now
          (jiffies now + sec * BitVec.ofNat 32 cfg.HZ)
        ownerPid := current.pid
        callingCommand := myStrcpy Buffer.set current.comm 0 t.callingCommand
        timerMsg := myStrcpy Buffer.set userMsg 0 t.timerMsg
        active := 1 } := by
  have hc := current.comm_length
  unfold Driver.fillTimer
  simp only [myStrcpy_cstr _ (pad 129 userMsg), cstr_pad _ _ hz,
    myStrcpy_cstr _ (pad 16 current.comm), cstr_pad _ _ current.comm_zero]
  rw [myStrcpy_storeMsg _ hz 0 _ (by omega),
    myStrcpy_storeCommand _ current.comm_zero 0 _ (by omega)]

theorem fillTimer_slot (now : ℕ) (current : Task) (i : Fin maxTimers) (userBuf : List Byte)
    (t : TimerInfo) (hl : (parseMsg userBuf).length ≤ 127) :
    (Driver.fillTimer cfg now current i (parseSec userBuf) (parseMsg userBuf) t).slot =
        some (parseMsg userBuf,
          ⟨now + (parseSec userBuf).toNat*cfg.HZ, current.pid, current.comm⟩) ∧
      (Driver.fillTimer cfg now current i (parseSec userBuf) (parseMsg userBuf) t).Terminated := by
  have hz := parseMsg_zero userBuf
  have hc := current.comm_length
  rw [fillTimer_eq cfg now current i _ _ t hz hl]
  refine ⟨?_, zero_mem_myStrcpy_set _ hz _ (by omega),
    zero_mem_myStrcpy_set _ current.comm_zero _ (by omega)⟩
  rw [slot_of_active _ (by simp [TimerInfo.Active])]
  have hm (t : TimerInfo) (b : Buffer 128)
      (h : t.timerMsg = myStrcpy Buffer.set (parseMsg userBuf) 0 b) :
      t.msg = parseMsg userBuf := by
    rw [TimerInfo.msg, TimerInfo.memoryFromMsg, h, cstr_myStrcpy_set _ hz _ (by omega)]
  have hcm (t : TimerInfo) (b : Buffer 16)
      (h : t.callingCommand = myStrcpy Buffer.set current.comm 0 b) : t.command = current.comm := by
    rw [TimerInfo.command, TimerInfo.memoryFromCommand, h,
      cstr_myStrcpy_set _ current.comm_zero _ (by omega)]
  rw [hm _ t.timerMsg rfl, TimerInfo.entry, hcm _ t.callingCommand rfl]
  simp only [TimerList.modTimer_due, (due_parseSec cfg now userBuf).1]

end Fill

section Find
variable (d : Driver)

theorem findMsg_some (m : List Byte) (k : Fin maxTimers) (hm : 0 ∉ m) (h : d.findMsg m = some k) :
    (d.timers k).Active ∧ (d.timers k).msg = m := by
  have hk := List.find?_some h
  simp only [decide_eq_true_eq, myStrcmp_eq_zero, cstr_pad _ _ hm] at hk
  exact ⟨hk.2, hk.1⟩

theorem findMsg_none (m : List Byte) (hm : 0 ∉ m) (h : d.findMsg m = none) (k : Fin maxTimers)
    (hk : (d.timers k).Active) : (d.timers k).msg ≠ m := by
  have hall := List.find?_eq_none.mp h k (List.mem_finRange k)
  simp only [decide_eq_true_eq, myStrcmp_eq_zero, cstr_pad _ _ hm, not_and] at hall
  exact fun he => hall he hk

theorem findInactive_some (k : Fin maxTimers) (h : d.findInactive = some k) :
    ¬ (d.timers k).Active := by
  have hk := List.find?_some h
  simpa using hk

theorem findInactive_none (h : d.findInactive = none) (k : Fin maxTimers) :
    (d.timers k).Active := by
  have hall := List.find?_eq_none.mp h k (List.mem_finRange k)
  simpa using hall

end Find

theorem slot_cases (k : Fin maxTimers) : k = 0 ∨ k = 1 := by
  revert k
  decide

theorem mytimerRead_fst (cfg : Config) (now : ℕ) (d : Driver) (count pos : ℕ) :
    (d.mytimerRead cfg now count pos).1 = d.prepareReadMsg cfg now := by
  simp only [Driver.mytimerRead]
  split_ifs <;> rfl

/-- A timer with its own handler clears its slot, counts down and wakes the owner. -/
theorem expire_eq (d : Driver) (k : Fin maxTimers)
    (hfun : (d.timers k).timer.function = some (Driver.handlerFor k)) :
    d.expire k = some ({ d.setTimer k { d.timers k with
        timer := (d.timers k).timer.delTimer, active := 0 } with
      numberActiveTimers := d.numberActiveTimers - 1 }, (d.timers k).ownerPid) := by
  unfold Driver.expire
  obtain rfl | rfl := slot_cases k <;>
    simp only [Driver.handlerFor, if_true, Fin.one_eq_zero_iff, OfNat.ofNat_ne_one, if_false] at hfun <;>
    simp [hfun, Driver.mytimerHandler0, Driver.mytimerHandler1, Driver.mytimerHandler,
      Driver.setTimer, Driver.sendWakeupCall]

section Write
variable (cfg : Config) (now : ℕ) (current : Task) (d : Driver) (buf : UserBuf)

/-- A write that is carried out: it leaves room for its NUL in `user_buf`, and can be copied. -/
def accepted (buf : UserBuf) : Prop := buf.bytes.length ≤ 149 ∧ buf.mapped = true

instance (buf : UserBuf) : Decidable (accepted buf) := inferInstanceAs (Decidable (_ ∧ _))

inductive Command
  | remove
  | capacity
  | set
  | other
  deriving DecidableEq

/-- The second byte of the text selects the command. -/
def commandOf (buf : UserBuf) : Command :=
  if (pad 150 buf.bytes).getD 1 0 = 114 then .remove
  else if (pad 150 buf.bytes).getD 1 0 = 109 then .capacity
  else if (pad 150 buf.bytes).getD 1 0 = 115 then .set
  else .other

/-- Everything `mytimer_write` does, by the kind of write. -/
theorem mytimerWrite_eq :
    d.mytimerWrite cfg now current buf =
      if accepted buf then
        (match commandOf buf with
          | .remove => d.writeRemove
          | .capacity => d.writeCapacity (pad 150 buf.bytes)
          | .set => d.writeSet cfg now current (pad 150 buf.bytes)
          | .other => d, (buf.bytes.length:ℤ))
      else (d, if buf.bytes.length > 149 then -EINVAL else -EFAULT) := by
  unfold Driver.mytimerWrite accepted commandOf
  by_cases hl : buf.bytes.length > 150-1
  · have : ¬ buf.bytes.length ≤ 149 := by omega
    simp [this, hl]
  · have : buf.bytes.length ≤ 149 := by omega
    by_cases hm : buf.mapped = true
    · simp only [this, hl, hm, if_true, if_false, not_true_eq_false, and_self]
      split_ifs <;> rfl
    · simp [this, hl, hm]

/-- Stopping a timer of which armed and active agree frees its slot. -/
theorem stopTimer_slot (t : TimerInfo) (h : t.Active → t.timer.pending = true) :
    (Driver.stopTimer t).slot = none ∧ ¬ (Driver.stopTimer t).Active := by
  have hn : ¬ (Driver.stopTimer t).Active := by
    unfold Driver.stopTimer
    split_ifs with hs
    · simp [TimerInfo.Active]
    · exact fun ha => hs ⟨h ha, ha⟩
  exact ⟨(slot_eq_none _).mpr hn, hn⟩

end Write

end DevKota.Lab3
