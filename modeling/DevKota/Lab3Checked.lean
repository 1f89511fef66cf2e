import DevKota.Lab3Owners

/-! The write path of the lab3 driver with every access checked: a read or a store outside the
array it is meant for has no result. -/
namespace DevKota.Lab3
open CString Kernel

section Arrays
variable {n : ℕ}

/-- `b[i]`. -/
def load (b : Buffer n) (i : ℕ) : Option Byte := b.bytes[i]?

/-- `b[i] = x`. -/
def store (b : Buffer n) (i : ℕ) (x : Byte) : Option (Buffer n) :=
  if i < n then some (b.set i x) else none

end Arrays

/-- The seconds loop: `i` and `j` of the source, and `c_sec`. The condition reads
`user_buf[i]` before it looks at `j`. -/
def secLoopIn (userBuf : Buffer 150) : ℕ → ℕ → ℕ → Buffer 6 → Option (ℕ × ℕ × Buffer 6)
  | 0, i, j, cSec => (load userBuf i).map fun _ => (i, j, cSec)
  | room+1, i, j, cSec => (load userBuf i).bind fun c =>
    if c ≠ 32 ∧ c ≠ 0 then
      (store cSec j c).bind fun cSec => secLoopIn userBuf room (i+1) (j+1) cSec
    else some (i, j, cSec)

/-- The message loop, with `user_msg`. -/
def msgLoopIn (userBuf : Buffer 150) : ℕ → ℕ → ℕ → Buffer 129 → Option (ℕ × Buffer 129)
  | 0, i, j, userMsg => (load userBuf i).map fun _ => (j, userMsg)
  | room+1, i, j, userMsg => (load userBuf i).bind fun c =>
    if c ≠ 0 then
      (store userMsg j c).bind fun userMsg => msgLoopIn userBuf room (i+1) (j+1) userMsg
    else some (j, userMsg)

/-- Both fields of a set command: `c_sec` and `user_msg`, each closed with a NUL. -/
def scanIn (userBuf : Buffer 150) : Option (Buffer 6 × Buffer 129) :=
  (secLoopIn userBuf 5 3 0 (Buffer.zero 6)).bind fun r =>
    (store r.2.2 r.2.1 0).bind fun cSec =>
      (load userBuf r.1).bind fun c =>
        let i := if c = 32 then r.1 + 1 else r.1
        (msgLoopIn userBuf 128 i 0 (Buffer.zero 129)).bind fun q =>
          (store q.2 q.1 0).map fun userMsg => (cSec, userMsg)

/-- `my_atoi` behind its blanks. A pointer is the rest of its array; at the end there is
nothing to read. -/
def myAtoiDigitsIn : Word → List Byte → Option Word
  | result, c :: s =>
    if 48 ≤ c ∧ c ≤ 57 then myAtoiDigitsIn (result*10 + BitVec.ofNat 32 (c.toNat-48)) s
    else some (if (0#32).slt result then result else 0)
  | _, [] => none

def myAtoiIn : List Byte → Option Word
  | c :: s => if c = 32 || c = 9 || c = 10 then myAtoiIn s else myAtoiDigitsIn 0 (c :: s)
  | [] => none

def myStrcmpIn : List Byte → List Byte → Option ℤ
  | a :: s, b :: t => if a ≠ 0 ∧ a = b then myStrcmpIn s t else some ((a.toNat:ℤ) - b.toNat)
  | _, _ => none

/-- `my_strcpy` into an array of `n` bytes. -/
def myStrcpyIn {n : ℕ} : List Byte → ℕ → Buffer n → Option (Buffer n)
  | c :: src, i, dest =>
    if c ≠ 0 then (store dest i c).bind fun dest => myStrcpyIn src (i+1) dest else store dest i 0
  | [], _, _ => none

namespace Driver

/-- The loop that compares `user_msg` with every slot until one matches. -/
def findMsgIn (d : Driver) (userMsg : Buffer 129) : List (Fin maxTimers) →
    Option (Option (Fin maxTimers))
  | k :: ks => (myStrcmpIn (d.timers k).timerMsg.bytes userMsg.bytes).bind fun r =>
    if r = 0 ∧ (d.timers k).Active then some (some k) else findMsgIn d userMsg ks
  | [] => some none

def fillTimerIn (cfg : Config) (now : ℕ) (current : Task) (i : Fin maxTimers) (sec : Word)
    (userMsg : Buffer 129) (t : TimerInfo) : Option TimerInfo :=
  let t := { t with active := 1 }
  (myStrcpyIn userMsg.bytes 0 t.timerMsg).bind fun timerMsg =>
    let t := { t with timerMsg := timerMsg }
    let t := { t with ownerPid := current.pid }
    (myStrcpyIn (pad 16 current.comm) 0 t.callingCommand).map fun callingCommand =>
      let t := { t with callingCommand := callingCommand }
      let t := { t with timer := t.timer.setup (some (handlerFor i)) }
      { t with timer := t.timer.modTimer now (jiffies now + sec * BitVec.ofNat 32 cfg.HZ) }

def writeSetIn (cfg : Config) (now : ℕ) (current : Task) (d : Driver) (userBuf : Buffer 150) :
    Option Driver :=
  (scanIn userBuf).bind fun r => (myAtoiIn r.1.bytes).bind fun sec =>
    (d.findMsgIn r.2 (List.finRange maxTimers)).bind fun found =>
      match found with
      | some k =>
        some { d.setTimer k (updateTimer cfg now sec (d.timers k)) with kernelOut := Buffer.zero 1000 }
      | none =>
        if d.numberActiveTimers < d.allowedTimers then
          match d.findInactive with
          | some i => (fillTimerIn cfg now current i sec r.2 (d.timers i)).map fun t =>
            { d.setTimer i t with
              numberActiveTimers := d.numberActiveTimers + 1
              kernelOut := Buffer.zero 1000 }
          | none => some d
        else some d

/-- `mytimer_write` with its array `user_buf`. -/
def mytimerWriteIn (cfg : Config) (now : ℕ) (current : Task) (d : Driver) (buf : UserBuf) :
    Option (Driver × ℤ) :=
  if buf.bytes.length > 150-1 then some (d, -EINVAL)
  else if ¬ buf.mapped then some (d, -EFAULT)
  else
    (store ((Buffer.zero 150).overwrite 0 buf.bytes) (min buf.bytes.length (150-1)) 0).bind
      fun userBuf => (load userBuf 1).bind fun command =>
        let count : ℤ := buf.bytes.length
        if command = 114 then some (d.writeRemove, count)
        else if command = 109 then some (d.writeCapacity userBuf.bytes, count)
        else if command = 115 then
          (d.writeSetIn cfg now current userBuf).map fun d => (d, count)
        else some (d, count)

end Driver

section Scan

theorem pad_set (n : ℕ) (p : List Byte) (c : Byte) (h : p.length < n) :
    (pad n p).set p.length c = pad n (p ++ [c]) := by
  obtain ⟨m, hm⟩ : ∃ m, n - p.length = m + 1 := ⟨n - p.length - 1, by omega⟩
  have hrest : n - (p ++ [c]).length = m := by
    rw [List.length_append, List.length_singleton]
    omega
  unfold pad
  rw [List.set_append_right _ _ (le_refl _), Nat.sub_self, hm, hrest, List.replicate_succ]
  simp

theorem pad_set_zero (n : ℕ) (p : List Byte) (h : p.length < n) :
    (pad n p).set p.length 0 = pad n p := by
  obtain ⟨m, hm⟩ : ∃ m, n - p.length = m + 1 := ⟨n - p.length - 1, by omega⟩
  unfold pad
  rw [List.set_append_right _ _ (le_refl _), Nat.sub_self, hm, List.replicate_succ]
  rfl

theorem zero_mem_pad (n : ℕ) (p : List Byte) (h : p.length < n) : 0 ∈ pad n p := by
  unfold pad
  rw [List.mem_append]
  exact Or.inr (List.mem_replicate.mpr ⟨by omega, rfl⟩)

theorem load_drop (b : Buffer 150) (i : ℕ) (h : i < 150) :
    ∃ c rest, load b i = some c ∧ b.bytes.drop i = c :: rest ∧ rest = b.bytes.drop (i+1) := by
  have hlen : i < b.bytes.length := by
    rw [b.length_eq]
    exact h
  refine ⟨b.bytes[i], _, ?_, List.drop_eq_getElem_cons hlen, rfl⟩
  exact List.getElem?_eq_getElem hlen

theorem store_pad {n : ℕ} (b : Buffer n) (p : List Byte) (c : Byte) (h : p.length < n)
    (hb : b.bytes = pad n p) :
    ∃ b', store b p.length c = some b' ∧ b'.bytes = pad n (p ++ [c]) := by
  refine ⟨b.set p.length c, if_pos h, ?_⟩
  rw [Buffer.set_bytes, hb, pad_set n p c h]

theorem store_close {n : ℕ} (b : Buffer n) (p : List Byte) (h : p.length < n)
    (hb : b.bytes = pad n p) : ∃ b', store b p.length 0 = some b' ∧ b'.bytes = pad n p := by
  refine ⟨b.set p.length 0, if_pos h, ?_⟩
  rw [Buffer.set_bytes, hb, pad_set_zero n p h]

/-- Five steps from index 3 stay inside both arrays, and copy what the unchecked loop copies. -/
theorem secLoopIn_eq (userBuf : Buffer 150) (room i : ℕ) (p : List Byte) (cSec : Buffer 6)
    (hi : i + room < 150) (hp : p.length + room ≤ 5) (hc : cSec.bytes = pad 6 p) :
    ∃ cSec', secLoopIn userBuf room i p.length cSec =
        some (i + (secLoop room (userBuf.bytes.drop i)).1.length,
          (p ++ (secLoop room (userBuf.bytes.drop i)).1).length, cSec') ∧
      cSec'.bytes = pad 6 (p ++ (secLoop room (userBuf.bytes.drop i)).1) ∧
      (secLoop room (userBuf.bytes.drop i)).2 =
        userBuf.bytes.drop (i + (secLoop room (userBuf.bytes.drop i)).1.length) := by
  induction room generalizing i p cSec with
  | zero =>
    obtain ⟨c, rest, hload, -, -⟩ := load_drop userBuf i (by omega)
    refine ⟨cSec, ?_, by simp [secLoop, hc], by simp [secLoop]⟩
    simp [secLoopIn, secLoop, hload]
  | succ room ih =>
    obtain ⟨c, rest, hload, hdrop, hrest⟩ := load_drop userBuf i (by omega)
    rw [secLoopIn, hload, Option.bind_some, hdrop, secLoop]
    split_ifs with hgo
    · obtain ⟨b, hstore, hb⟩ := store_pad cSec p c (by omega) hc
      obtain ⟨cSec', hrun, hbytes, hleft⟩ :=
        ih (i+1) (p ++ [c]) b (by omega) (by rw [List.length_append, List.length_singleton]; omega) hb
      rw [← hrest] at hrun hbytes hleft
      have hidx : i + (c :: (secLoop room rest).1).length =
          i + 1 + (secLoop room rest).1.length := by
        rw [List.length_cons]
        omega
      have happ : p ++ c :: (secLoop room rest).1 = p ++ [c] ++ (secLoop room rest).1 := by simp
      have hlen : (p ++ [c]).length = p.length + 1 := by simp
      rw [hstore, Option.bind_some, hidx, happ, ← hlen]
      exact ⟨cSec', hrun, hbytes, hleft⟩
    · refine ⟨cSec, by simp, by simpa using hc, ?_⟩
      simpa using hdrop.symm

theorem msgLoopIn_eq (userBuf : Buffer 150) (room i : ℕ) (p : List Byte) (userMsg : Buffer 129)
    (hi : i + room < 150) (hp : p.length + room ≤ 128) (hm : userMsg.bytes = pad 129 p) :
    ∃ userMsg', msgLoopIn userBuf room i p.length userMsg =
        some ((p ++ msgLoop room (userBuf.bytes.drop i)).length, userMsg') ∧
      userMsg'.bytes = pad 129 (p ++ msgLoop room (userBuf.bytes.drop i)) := by
  induction room generalizing i p userMsg with
  | zero =>
    obtain ⟨c, rest, hload, -, -⟩ := load_drop userBuf i (by omega)
    refine ⟨userMsg, ?_, by simp [msgLoop, hm]⟩
    simp [msgLoopIn, msgLoop, hload]
  | succ room ih =>
    obtain ⟨c, rest, hload, hdrop, hrest⟩ := load_drop userBuf i (by omega)
    rw [msgLoopIn, hload, Option.bind_some, hdrop, msgLoop]
    split_ifs with hgo
    · obtain ⟨b, hstore, hb⟩ := store_pad userMsg p c (by omega) hm
      obtain ⟨userMsg', hrun, hbytes⟩ :=
        ih (i+1) (p ++ [c]) b (by omega) (by rw [List.length_append, List.length_singleton]; omega) hb
      rw [← hrest] at hrun hbytes
      have happ : p ++ c :: msgLoop room rest = p ++ [c] ++ msgLoop room rest := by simp
      have hlen : (p ++ [c]).length = p.length + 1 := by simp
      rw [hstore, Option.bind_some, happ, ← hlen]
      exact ⟨userMsg', hrun, hbytes⟩
    · exact ⟨userMsg, by simp, by simpa using hm⟩

/-- Scanning never leaves an array: the loops start where the one before stopped, and 3, 5, a
blank and 128 stay below 150. -/
theorem scanIn_eq (userBuf : Buffer 150) : ∃ cSec userMsg,
    scanIn userBuf = some (cSec, userMsg) ∧
      cSec.bytes = pad 6 (secLoop 5 (userBuf.bytes.drop 3)).1 ∧
      userMsg.bytes = pad 129 (parseMsg userBuf.bytes) := by
  have hsec := secLoop_length 5 (userBuf.bytes.drop 3)
  obtain ⟨c1, hloop, hb1, hleft⟩ := secLoopIn_eq userBuf 5 3 [] (Buffer.zero 6) (by decide)
    (by decide) rfl
  simp only [List.nil_append, List.length_nil] at hloop hb1
  obtain ⟨cSec, hclose, hb2⟩ := store_close c1 _ (by omega) hb1
  obtain ⟨c, rest, hload, hdrop, hrest⟩ :=
    load_drop userBuf (3 + (secLoop 5 (userBuf.bytes.drop 3)).1.length) (by omega)
  -- the message begins at the index where the seconds ended, or one further behind a blank
  obtain ⟨i, hi⟩ : ∃ i, i = if c = 32 then 3 + (secLoop 5 (userBuf.bytes.drop 3)).1.length + 1
      else 3 + (secLoop 5 (userBuf.bytes.drop 3)).1.length := ⟨_, rfl⟩
  have hle : i + 128 < 150 := by
    rw [hi]
    split_ifs <;> omega
  have hskip : skipBlank (secLoop 5 (userBuf.bytes.drop 3)).2 = userBuf.bytes.drop i := by
    rw [hleft, hdrop, skipBlank, hi]
    split_ifs with h32
    · exact hrest
    · exact hdrop.symm
  have hparse : msgLoop 128 (userBuf.bytes.drop i) = parseMsg userBuf.bytes := by
    rw [← hskip]
    rfl
  obtain ⟨m1, hmsg, hb3⟩ := msgLoopIn_eq userBuf 128 i [] (Buffer.zero 129) hle (by decide) rfl
  simp only [List.nil_append, List.length_nil, hparse] at hmsg hb3
  have hmlen := parseMsg_length userBuf.bytes
  obtain ⟨userMsg, hend, hb4⟩ := store_close m1 (parseMsg userBuf.bytes) (by omega) hb3
  refine ⟨cSec, userMsg, ?_, hb2, hb4⟩
  unfold scanIn
  simp only [hloop, Option.bind_some, hclose, hload, ← hi, hmsg, hend, Option.map_some]

end Scan

section Strings

theorem myAtoiDigitsIn_eq (r : Word) (s : List Byte) (h : 0 ∈ s) :
    myAtoiDigitsIn r s =
      some (if (0#32).slt (myAtoiDigits r s) then myAtoiDigits r s else 0) := by
  induction s generalizing r with
  | nil => cases h
  | cons c s ih =>
    rw [myAtoiDigitsIn, myAtoiDigits]
    by_cases hc : 48 ≤ c ∧ c ≤ 57
    · -- a digit is not the NUL, which is still ahead
      have hne : (0 : Byte) ≠ c := by
        rintro rfl
        exact absurd hc.1 (by decide)
      simp only [if_pos hc]
      exact ih _ ((List.mem_cons.mp h).resolve_left hne)
    · simp only [if_neg hc]

theorem myAtoiIn_eq (s : List Byte) (h : 0 ∈ s) : myAtoiIn s = some (myAtoi s) := by
  induction s with
  | nil => cases h
  | cons c s ih =>
    rw [myAtoiIn]
    by_cases hc : (c = 32 || c = 9 || c = 10) = true
    · have hne : (0 : Byte) ≠ c := by
        rintro rfl
        exact absurd hc (by decide)
      have hskip : (c :: s).dropWhile (fun c => c = 32 || c = 9 || c = 10) =
          s.dropWhile fun c => c = 32 || c = 9 || c = 10 := List.dropWhile_cons_of_pos hc
      rw [if_pos hc, ih ((List.mem_cons.mp h).resolve_left hne), myAtoi, myAtoi, hskip]
    · have hstay : (c :: s).dropWhile (fun c => c = 32 || c = 9 || c = 10) = c :: s :=
        List.dropWhile_cons_of_neg hc
      rw [if_neg hc, myAtoiDigitsIn_eq 0 _ h, myAtoi, hstay]

theorem myStrcmpIn_eq (s t : List Byte) (hs : 0 ∈ s) (ht : 0 ∈ t) :
    myStrcmpIn s t = some (myStrcmp s t) := by
  induction s generalizing t with
  | nil => cases hs
  | cons a s ih =>
    cases t with
    | nil => cases ht
    | cons b t =>
      rw [myStrcmpIn, myStrcmp]
      split_ifs with hgo
      · obtain ⟨ha, rfl⟩ := hgo
        exact ih t ((List.mem_cons.mp hs).resolve_left (Ne.symm ha))
          ((List.mem_cons.mp ht).resolve_left (Ne.symm ha))
      · rfl

/-- The copy stays inside its destination exactly when the string and its NUL fit. -/
theorem myStrcpyIn_eq {n : ℕ} (src : List Byte) (i : ℕ) (dest : Buffer n) (h : 0 ∈ src) :
    myStrcpyIn src i dest =
      if i + (cstr src).length < n then some (myStrcpy Buffer.set src i dest) else none := by
  induction src generalizing i dest with
  | nil => cases h
  | cons c src ih =>
    rw [myStrcpyIn, myStrcpy, cstr_cons]
    by_cases hc : c = 0
    · simp [hc, store]
    · have hrest := ih (i+1) (dest.set i c) ((List.mem_cons.mp h).resolve_left (Ne.symm hc))
      simp only [hc, ne_eq, not_false_eq_true, if_true, if_false, List.length_cons, store]
      by_cases hi : i < n
      · rw [if_pos hi, Option.bind_some, hrest]
        have hiff : i + 1 + (cstr src).length < n ↔ i + ((cstr src).length + 1) < n := by omega
        simp only [hiff]
      · rw [if_neg hi, if_neg (by omega)]
        rfl

end Strings

section Write
variable (cfg : Config) (now : ℕ) (current : Task) (d : Driver) (buf : UserBuf)

theorem findMsgIn_eq (hterm : ∀ k, 0 ∈ (d.timers k).timerMsg.bytes) (m : List Byte)
    (hm : m.length ≤ 128) (userMsg : Buffer 129) (hbytes : userMsg.bytes = pad 129 m)
    (ks : List (Fin maxTimers)) :
    d.findMsgIn userMsg ks = some (ks.find? fun k =>
      myStrcmp (d.timers k).memoryFromMsg (pad 129 m) = 0 ∧ (d.timers k).Active) := by
  induction ks with
  | nil => rfl
  | cons k ks ih =>
    have hcmp := myStrcmpIn_eq _ userMsg.bytes (hterm k) (by
      rw [hbytes]
      exact zero_mem_pad 129 m (by omega))
    -- the array alone holds the whole string, so what lies behind it is not compared
    have hsame : myStrcmp (d.timers k).timerMsg.bytes (pad 129 m) = 0 ↔
        myStrcmp (d.timers k).memoryFromMsg (pad 129 m) = 0 := by
      rw [myStrcmp_eq_zero, myStrcmp_eq_zero, TimerInfo.memoryFromMsg,
        cstr_append_of_mem _ _ (hterm k)]
    rw [Driver.findMsgIn, hcmp, Option.bind_some, List.find?_cons, hbytes, ih]
    simp only [hsame]
    split_ifs with hk
    · simp [hk]
    · simp [hk]

theorem fillTimerIn_eq (i : Fin maxTimers) (sec : Word) (m : List Byte) (t : TimerInfo)
    (hz : 0 ∉ m) (hm : m.length ≤ 128) (userMsg : Buffer 129) (hbytes : userMsg.bytes = pad 129 m) :
    Driver.fillTimerIn cfg now current i sec userMsg t =
      if m.length ≤ 127 then some (Driver.fillTimer cfg now current i sec m t) else none := by
  have hcomm := current.comm_length
  have hcopy := myStrcpyIn_eq (pad 129 m) 0 t.timerMsg (zero_mem_pad 129 m (by omega))
  have hcommand := myStrcpyIn_eq (pad 16 current.comm) 0 t.callingCommand
    (zero_mem_pad 16 current.comm (by omega))
  rw [cstr_pad _ _ hz] at hcopy
  rw [cstr_pad _ _ current.comm_zero, if_pos (by omega)] at hcommand
  unfold Driver.fillTimerIn
  simp only [hbytes, hcopy, hcommand]
  by_cases hl : m.length ≤ 127
  · rw [if_pos (by omega), if_pos hl, fillTimer_eq cfg now current i sec m t hz hl,
      myStrcpy_cstr _ (pad 129 m), cstr_pad _ _ hz, myStrcpy_cstr _ (pad 16 current.comm),
      cstr_pad _ _ current.comm_zero]
    rfl
  · rw [if_neg (by omega), if_neg hl]
    rfl

/-- The checked set command fails only where a message of 128 bytes is copied to a slot. -/
theorem writeSetIn_eq (hterm : ∀ k, 0 ∈ (d.timers k).timerMsg.bytes) (userBuf : Buffer 150)
    (hbytes : userBuf.bytes = pad 150 buf.bytes) (ha : accepted buf) (hc : commandOf buf = .set) :
    d.writeSetIn cfg now current userBuf =
      if d.insertsAt buf ≠ none ∧ (parseMsg (pad 150 buf.bytes)).length = 128 then none
      else some (d.writeSet cfg now current (pad 150 buf.bytes)) := by
  obtain ⟨cSec, userMsg, hscan, hsec, hmsg⟩ := scanIn_eq userBuf
  rw [hbytes] at hsec hmsg
  have hlen := secLoop_length 5 ((pad 150 buf.bytes).drop 3)
  have hle := parseMsg_length (pad 150 buf.bytes)
  have hz := parseMsg_zero (pad 150 buf.bytes)
  have hatoi : myAtoiIn cSec.bytes = some (parseSec (pad 150 buf.bytes)) := by
    rw [hsec]
    exact myAtoiIn_eq _ (zero_mem_pad 6 _ (by omega))
  have hfind : d.findMsgIn userMsg (List.finRange maxTimers) =
      some (d.findMsg (parseMsg (pad 150 buf.bytes))) :=
    findMsgIn_eq d hterm _ hle userMsg hmsg _
  unfold Driver.writeSetIn Driver.writeSet
  simp only [hscan, hatoi, hfind, Option.bind_some]
  cases hf : d.findMsg (parseMsg (pad 150 buf.bytes)) with
  | some k =>
    -- an update copies no string
    have hins : d.insertsAt buf = none := by simp [Driver.insertsAt, hf]
    simp [hins]
  | none =>
    by_cases hroom : d.numberActiveTimers < d.allowedTimers
    · have hins : d.insertsAt buf = d.findInactive := by
        unfold Driver.insertsAt
        rw [if_pos ⟨ha, hc, hf, hroom⟩]
      simp only [if_pos hroom, hins]
      cases hfree : d.findInactive with
      | none => simp
      | some i =>
        have hfill := fillTimerIn_eq cfg now current i (parseSec (pad 150 buf.bytes)) _
          (d.timers i) hz hle userMsg hmsg
        simp only [hfill]
        -- the terminator of 128 bytes would be stored behind `timer_msg`
        by_cases hl : (parseMsg (pad 150 buf.bytes)).length ≤ 127
        · have hne : (parseMsg (pad 150 buf.bytes)).length ≠ 128 := by omega
          simp [hl, hne]
        · have heq : (parseMsg (pad 150 buf.bytes)).length = 128 := by omega
          simp [heq]
    · have hins : d.insertsAt buf = none := by simp [Driver.insertsAt, hroom]
      simp [hins, hroom]

/-- The array that `copy_from_user` and the closing store leave. -/
theorem userBuf_eq (h : buf.bytes.length ≤ 149) : ∃ userBuf,
    store ((Buffer.zero 150).overwrite 0 buf.bytes) (min buf.bytes.length (150-1)) 0 =
        some userBuf ∧ userBuf.bytes = pad 150 buf.bytes := by
  have hcopy : ((Buffer.zero 150).overwrite 0 buf.bytes).bytes = pad 150 buf.bytes := by
    rw [Buffer.overwrite_bytes _ _ _ (by omega), Buffer.zero_bytes, List.take_zero,
      List.nil_append, Nat.zero_add, List.drop_replicate]
    rfl
  have hmin : min buf.bytes.length (150-1) = buf.bytes.length := by omega
  rw [hmin]
  exact store_close _ _ (by omega) hcopy

/-- The checked write gives what the write does to memory, except where it would leave an
array. -/
theorem mytimerWriteIn_eq (hterm : ∀ k, 0 ∈ (d.timers k).timerMsg.bytes) :
    d.mytimerWriteIn cfg now current buf =
      if d.insertsAt buf ≠ none ∧ (parseMsg (pad 150 buf.bytes)).length = 128 then none
      else some (d.mytimerWrite cfg now current buf) := by
  have hno (hins : d.insertsAt buf = none) :
      ¬ (d.insertsAt buf ≠ none ∧ (parseMsg (pad 150 buf.bytes)).length = 128) :=
    fun h => h.1 hins
  by_cases ha : accepted buf
  · obtain ⟨userBuf, hstore, hbytes⟩ := userBuf_eq buf ha.1
    have hload : load userBuf 1 = some ((pad 150 buf.bytes).getD 1 0) := by
      have hlen : 1 < userBuf.bytes.length := by rw [userBuf.length_eq]; decide
      rw [load, ← hbytes, List.getD_eq_getElem?_getD, List.getElem?_eq_getElem hlen,
        Option.getD_some]
    have hcount : ¬ buf.bytes.length > 150-1 := by have := ha.1; omega
    unfold Driver.mytimerWriteIn Driver.mytimerWrite
    simp only [hcount, ha.2, if_false, not_true_eq_false, hstore, hload, hbytes, Option.bind_some]
    -- only a set command inserts; the other commands touch no string
    by_cases hr : (pad 150 buf.bytes).getD 1 0 = 114
    · have hins := insertsAt_of_command d buf (by rw [commandOf, if_pos hr]; decide)
      simp only [if_neg (hno hins), if_pos hr]
    by_cases hm : (pad 150 buf.bytes).getD 1 0 = 109
    · have hins := insertsAt_of_command d buf (by rw [commandOf, if_neg hr, if_pos hm]; decide)
      simp only [if_neg (hno hins), if_neg hr, if_pos hm]
    by_cases hs : (pad 150 buf.bytes).getD 1 0 = 115
    · have hc : commandOf buf = .set := by rw [commandOf, if_neg hr, if_neg hm, if_pos hs]
      simp only [if_neg hr, if_neg hm, if_pos hs,
        writeSetIn_eq cfg now current d buf hterm userBuf hbytes ha hc]
      split_ifs <;> rfl
    · have hins := insertsAt_of_command d buf (by
        rw [commandOf, if_neg hr, if_neg hm, if_neg hs]
        decide)
      simp only [if_neg (hno hins), if_neg hr, if_neg hm, if_neg hs]
  · -- a refused write stores nothing
    have hins : d.insertsAt buf = none := by simp [Driver.insertsAt, ha]
    have href : d.mytimerWriteIn cfg now current buf = some (d.mytimerWrite cfg now current buf) := by
      unfold Driver.mytimerWriteIn Driver.mytimerWrite
      by_cases hl : buf.bytes.length > 150-1
      · simp only [hl, if_true]
      · have hmap : ¬ buf.mapped = true := fun hmap => ha ⟨by omega, hmap⟩
        simp only [if_neg hl, if_pos hmap]
    rw [if_neg (hno hins), href]

/-- Every access of the write lies in its own array, so that no field is reached through
another; the flag of a filled slot stays set; and every message is terminated again. -/
structure WriteBounded : Prop where
  inside : d.mytimerWriteIn cfg now current buf = some (d.mytimerWrite cfg now current buf)
  flag (i : Fin maxTimers) : d.insertsAt buf = some i →
    ((d.mytimerWrite cfg now current buf).1.timers i).active = 1
  terminated (k : Fin maxTimers) :
    0 ∈ ((d.mytimerWrite cfg now current buf).1.timers k).timerMsg.bytes

theorem writeBounded_of_fits (hterm : ∀ k, 0 ∈ (d.timers k).timerMsg.bytes)
    (hfit : ∀ i, d.insertsAt buf = some i → (parseMsg (pad 150 buf.bytes)).length ≤ 127) :
    WriteBounded cfg now current d buf where
  inside := by
    rw [mytimerWriteIn_eq cfg now current d buf hterm, if_neg]
    intro hbad
    obtain ⟨i, hi⟩ := Option.ne_none_iff_exists'.mp hbad.1
    have hl := hfit i hi
    omega
  flag i hi := by
    rw [write_fills cfg now current d buf i hi,
      fillTimer_eq cfg now current i _ _ _ (parseMsg_zero _) (hfit i hi)]
  terminated k := by
    cases write_slot cfg now current d buf k with
    | filled hi ht =>
      rw [ht]
      exact (fillTimer_slot cfg now current k (pad 150 buf.bytes) _ (hfit k hi)).2.1
    | rearmed hi hr hk ht =>
      rw [ht]
      exact hterm k
    | stopped hr ht =>
      rw [ht]
      unfold Driver.stopTimer
      split_ifs <;> exact hterm k
    | kept hi hr ht =>
      rw [ht]
      exact hterm k

end Write

/-- On terminated messages a write stays inside its arrays exactly when it does not fill a
slot with a message of 128 bytes. -/
theorem write_bounded_iff (cfg : Config) (now : ℕ) (current : Task) (d : Driver) (buf : UserBuf)
    (hterm : ∀ k, 0 ∈ (d.timers k).timerMsg.bytes) :
    WriteBounded cfg now current d buf ↔
      ¬ (d.insertsAt buf ≠ none ∧ (parseMsg (pad 150 buf.bytes)).length = 128) := by
  constructor
  · intro h hbad
    have hin := h.inside
    rw [mytimerWriteIn_eq cfg now current d buf hterm, if_pos hbad] at hin
    cases hin
  · intro h
    apply writeBounded_of_fits cfg now current d buf hterm
    intro i hi
    have hle := parseMsg_length (pad 150 buf.bytes)
    by_contra hl
    exact h ⟨by rw [hi]; simp, by omega⟩

set_option maxRecDepth 8192 in
theorem write_bounded_iff_init : WriteBounded sampleConfig 0 (sampleTask 7 (by decide))
    (Driver.mytimerInit 0) ⟨ascii "-s 5 bob" ++ [0], true⟩ :=
  (write_bounded_iff _ _ _ _ _ (by decide)).mpr (by decide)

set_option maxRecDepth 8192 in
/-- The NUL behind a message of 128 bytes is stored on `active`. -/
theorem write_clears_flag : ¬ ∀ (cfg : Config) (now : ℕ) (current : Task) (d : Driver)
    (buf : UserBuf), buf.bytes.length ≤ 149 → (∀ k, 0 ∈ (d.timers k).timerMsg.bytes) →
      WriteBounded cfg now current d buf := by
  intro hall
  have h := hall sampleConfig 0 (sampleTask 7 (by decide)) (Driver.mytimerInit 0)
    ⟨ascii "-s 5 " ++ List.replicate 128 97 ++ [0], true⟩ (by decide) (by decide)
  have hflag := h.flag 0 (by decide)
  exact absurd hflag (by decide +kernel)

end DevKota.Lab3
