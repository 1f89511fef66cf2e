import DevKota.Lab3Client

/-! Who owns the slots of the lab3 driver before and after a write, and when a timer fires. -/
namespace DevKota.Lab3
open CString Kernel

/-- The slot that a write fills for its caller, if it fills one. -/
def Driver.insertsAt (d : Driver) (buf : UserBuf) : Option (Fin maxTimers) :=
  if accepted buf ∧ commandOf buf = .set ∧ d.findMsg (parseMsg (pad 150 buf.bytes)) = none ∧
      d.numberActiveTimers < d.allowedTimers then
    d.findInactive
  else none

/-- Some active slot carries the pid. -/
def Owns (d : Driver) (pid : ℕ) : Prop :=
  ∃ k, (d.timers k).Active ∧ (d.timers k).ownerPid = pid

instance (d : Driver) (pid : ℕ) : Decidable (Owns d pid) :=
  inferInstanceAs (Decidable (∃ _, _ ∧ _))

section Overflow

/-- A copy of 128 bytes to `timer_msg` fills the array and puts its NUL on `active`. -/
theorem myStrcpy_storeMsg_full (s : List Byte) (hs : 0 ∉ s) (i : ℕ) (t : TimerInfo)
    (h : i + s.length = 128) :
    (myStrcpy TimerInfo.storeMsg s i t).timerMsg.bytes = t.timerMsg.bytes.take i ++ s ∧
      (myStrcpy TimerInfo.storeMsg s i t).active = setByte t.active 0 0 := by
  induction s generalizing i t with
  | nil =>
    have hi : i = 128 := by simpa using h
    have hlen := t.timerMsg.length_eq
    subst hi
    simp only [myStrcpy, TimerInfo.storeMsg, Nat.lt_irrefl, if_false, List.append_nil]
    rw [List.take_of_length_le (by omega)]
    exact ⟨rfl, rfl⟩
  | cons c s ih =>
    have hc : c ≠ 0 := fun hz => hs (by simp [hz])
    simp only [List.length_cons] at h
    have hi : i < 128 := by omega
    have hlen : i < t.timerMsg.bytes.length := by
      rw [t.timerMsg.length_eq]
      exact hi
    -- the head lies in the array, so only the last store reaches the flag
    have hstore : t.storeMsg i c = { t with timerMsg := t.timerMsg.set i c } := by
      rw [TimerInfo.storeMsg, if_pos hi]
    have hrest := ih (fun hz => hs (List.mem_cons_of_mem _ hz)) (i+1) (t.storeMsg i c) (by omega)
    rw [myStrcpy, if_pos hc]
    constructor
    · rw [hrest.1, hstore]
      simp [List.take_add_one, List.take_set_of_le, hlen]
    · rw [hrest.2, hstore]

/-- The message and the flag of a filled slot are what the first copy left. -/
theorem fillTimer_fields (cfg : Config) (now : ℕ) (current : Task) (i : Fin maxTimers) (sec : Word)
    (userMsg : List Byte) (hz : 0 ∉ userMsg) (t : TimerInfo) :
    (Driver.fillTimer cfg now current i sec userMsg t).ownerPid = current.pid ∧
      (Driver.fillTimer cfg now current i sec userMsg t).timerMsg =
        (myStrcpy TimerInfo.storeMsg userMsg 0 { t with active := 1 }).timerMsg ∧
      (Driver.fillTimer cfg now current i sec userMsg t).active =
        (myStrcpy TimerInfo.storeMsg userMsg 0 { t with active := 1 }).active := by
  have hcomm := current.comm_length
  unfold Driver.fillTimer
  simp only [myStrcpy_cstr _ (pad 129 userMsg), cstr_pad _ _ hz,
    myStrcpy_cstr _ (pad 16 current.comm), cstr_pad _ _ current.comm_zero]
  rw [myStrcpy_storeCommand _ current.comm_zero 0 _ (by omega)]
  exact ⟨rfl, rfl, rfl⟩

/-- What a filled slot holds, for a message of any length that the parser lets through. With
128 bytes the slot is armed and not active. -/
theorem fillTimer_stored (cfg : Config) (now : ℕ) (current : Task) (i : Fin maxTimers)
    (userBuf : List Byte) (t t' : TimerInfo)
    (ht : t' = Driver.fillTimer cfg now current i (parseSec userBuf) (parseMsg userBuf) t) :
    t'.ownerPid = current.pid ∧ t'.timer.pending = true ∧ t'.msg = parseMsg userBuf ∧
      (t'.Active ↔ (parseMsg userBuf).length ≤ 127) := by
  have hz := parseMsg_zero userBuf
  have hle := parseMsg_length userBuf
  have hpending : t'.timer.pending = true := by
    rw [ht]
    rfl
  obtain ⟨howner, hmsg, hactive⟩ :=
    fillTimer_fields cfg now current i (parseSec userBuf) (parseMsg userBuf) hz t
  rw [← ht] at howner hmsg hactive
  refine ⟨howner, hpending, ?_⟩
  by_cases hl : (parseMsg userBuf).length ≤ 127
  · rw [myStrcpy_storeMsg _ hz 0 _ (by omega)] at hmsg hactive
    constructor
    · rw [TimerInfo.msg, TimerInfo.memoryFromMsg, hmsg, cstr_myStrcpy_set _ hz _ (by omega)]
    · rw [TimerInfo.Active, hactive]
      simp [hl]
  · -- the NUL behind the 128th byte clears the flag that was just set
    obtain ⟨hbytes, hcleared⟩ :=
      myStrcpy_storeMsg_full (parseMsg userBuf) hz 0 { t with active := 1 } (by omega)
    rw [hcleared] at hactive
    rw [← hmsg] at hbytes
    have hflag : setByte (1 : Word) 0 0 = 0 := by decide
    have hzero : t'.active = 0 := hactive.trans hflag
    constructor
    · have hzeros : [byteAt (0 : Word) 0, byteAt (0 : Word) 1, byteAt (0 : Word) 2,
          byteAt (0 : Word) 3] = 0 :: [0, 0, 0] := by decide
      rw [TimerInfo.msg, TimerInfo.memoryFromMsg, hbytes, hzero, hzeros]
      exact cstr_append_zero _ _ hz
    · rw [TimerInfo.Active, hzero]
      simp [hl]

end Overflow

section Write
variable (cfg : Config) (now : ℕ) (current : Task) (d : Driver) (buf : UserBuf)

theorem insertsAt_of_command (h : commandOf buf ≠ .set) : d.insertsAt buf = none := by
  rw [Driver.insertsAt, if_neg fun hc => h hc.2.1]

theorem insertsAt_inactive (i : Fin maxTimers) (h : d.insertsAt buf = some i) :
    ¬ (d.timers i).Active := by
  unfold Driver.insertsAt at h
  split_ifs at h
  exact findInactive_some d i h

/-- The removal command, as far as the driver carries it out. -/
def Removes (buf : UserBuf) : Prop := accepted buf ∧ commandOf buf = .remove

/-- Everything a write can make of the slot `k`. -/
inductive SlotEffect (k : Fin maxTimers) (t : TimerInfo) : Prop
  | filled (hi : d.insertsAt buf = some k)
      (ht : t = Driver.fillTimer cfg now current k (parseSec (pad 150 buf.bytes))
        (parseMsg (pad 150 buf.bytes)) (d.timers k))
  | rearmed (hi : d.insertsAt buf ≠ some k) (hr : ¬ Removes buf) (hk : (d.timers k).Active)
      (ht : t = Driver.updateTimer cfg now (parseSec (pad 150 buf.bytes)) (d.timers k))
  | stopped (hr : Removes buf) (ht : t = Driver.stopTimer (d.timers k))
  | kept (hi : d.insertsAt buf ≠ some k) (hr : ¬ Removes buf) (ht : t = d.timers k)

/-- Everything the set command can do: update the slot that holds the message, fill a free one,
or nothing, for want of room or of a free slot. -/
theorem writeSet_cases (ha : accepted buf) (hc : commandOf buf = .set) :
    (∃ j, d.findMsg (parseMsg (pad 150 buf.bytes)) = some j ∧ d.insertsAt buf = none ∧
      (d.writeSet cfg now current (pad 150 buf.bytes)).timers = Function.update d.timers j
        (Driver.updateTimer cfg now (parseSec (pad 150 buf.bytes)) (d.timers j))) ∨
    (∃ i, d.findMsg (parseMsg (pad 150 buf.bytes)) = none ∧ d.insertsAt buf = some i ∧
      (d.writeSet cfg now current (pad 150 buf.bytes)).timers = Function.update d.timers i
        (Driver.fillTimer cfg now current i (parseSec (pad 150 buf.bytes))
          (parseMsg (pad 150 buf.bytes)) (d.timers i))) ∨
    (d.findMsg (parseMsg (pad 150 buf.bytes)) = none ∧ d.insertsAt buf = none ∧
      (d.writeSet cfg now current (pad 150 buf.bytes)).timers = d.timers) := by
  unfold Driver.writeSet
  cases hf : d.findMsg (parseMsg (pad 150 buf.bytes)) with
  | some j => exact Or.inl ⟨j, rfl, by simp [Driver.insertsAt, hf], rfl⟩
  | none =>
    right
    by_cases hroom : d.numberActiveTimers < d.allowedTimers
    · have hins : d.insertsAt buf = d.findInactive := by
        unfold Driver.insertsAt
        rw [if_pos ⟨ha, hc, hf, hroom⟩]
      rw [hins]
      simp only [if_pos hroom, true_and]
      cases d.findInactive with
      | some i => exact Or.inl ⟨i, rfl, rfl⟩
      | none => exact Or.inr ⟨rfl, rfl⟩
    · right
      simp [Driver.insertsAt, hroom]

/-- The set command on one slot, by what the driver finds. -/
theorem writeSet_slot (k : Fin maxTimers) (ha : accepted buf) (hc : commandOf buf = .set) :
    SlotEffect cfg now current d buf k
      ((d.writeSet cfg now current (pad 150 buf.bytes)).timers k) := by
  have hr : ¬ Removes buf := by simp [Removes, hc]
  rcases writeSet_cases cfg now current d buf ha hc with
    ⟨j, hf, hins, ht⟩ | ⟨i, -, hins, ht⟩ | ⟨-, hins, ht⟩
  · have hactive := (findMsg_some d _ j (parseMsg_zero _) hf).1
    have hins' : d.insertsAt buf ≠ some k := by simp [hins]
    rw [ht]
    by_cases hkj : k = j
    · subst hkj
      exact .rearmed hins' hr hactive (Function.update_self _ _ _)
    · exact .kept hins' hr (Function.update_of_ne hkj _ _)
  · rw [ht]
    by_cases hki : k = i
    · subst hki
      exact .filled hins (Function.update_self _ _ _)
    · refine .kept (fun he => ?_) hr (Function.update_of_ne hki _ _)
      rw [hins] at he
      exact hki (Option.some.inj he).symm
  · apply SlotEffect.kept _ hr
    · rw [ht]
    · rw [hins]
      simp

theorem write_slot (k : Fin maxTimers) :
    SlotEffect cfg now current d buf k ((d.mytimerWrite cfg now current buf).1.timers k) := by
  rw [mytimerWrite_eq]
  by_cases ha : accepted buf
  · rw [if_pos ha]
    cases hc : commandOf buf with
    | remove => exact .stopped ⟨ha, hc⟩ rfl
    | set => exact writeSet_slot cfg now current d buf k ha hc
    | capacity =>
      apply SlotEffect.kept
      · rw [insertsAt_of_command d buf (by rw [hc]; simp)]
        simp
      · simp [Removes, hc]
      · exact congrFun (writeCapacity_timers d _) k
    | other =>
      apply SlotEffect.kept
      · rw [insertsAt_of_command d buf (by rw [hc]; simp)]
        simp
      · simp [Removes, hc]
      · rfl
  · rw [if_neg ha]
    apply SlotEffect.kept
    · simp [Driver.insertsAt, ha]
    · exact fun hr => ha hr.1
    · rfl

theorem write_fills (i : Fin maxTimers) (hi : d.insertsAt buf = some i) :
    (d.mytimerWrite cfg now current buf).1.timers i =
      Driver.fillTimer cfg now current i (parseSec (pad 150 buf.bytes))
        (parseMsg (pad 150 buf.bytes)) (d.timers i) := by
  have hnone (hr : Removes buf) : d.insertsAt buf = none :=
    insertsAt_of_command d buf (by rw [hr.2]; simp)
  cases write_slot cfg now current d buf i with
  | filled _ ht => exact ht
  | rearmed hne _ _ _ => exact absurd hi hne
  | kept hne _ _ => exact absurd hi hne
  | stopped hr _ =>
    rw [hnone hr] at hi
    cases hi

/-- A write that is not a removal takes no slot away from its owner. -/
theorem owns_write (pid : ℕ) (hr : ¬ Removes buf) (h : Owns d pid) :
    Owns (d.mytimerWrite cfg now current buf).1 pid := by
  obtain ⟨k, hk, howner⟩ := h
  refine ⟨k, ?_⟩
  cases write_slot cfg now current d buf k with
  | filled hi ht => exact absurd hk (insertsAt_inactive d buf k hi)
  | rearmed hi hr hk ht =>
    rw [ht]
    exact ⟨hk, howner⟩
  | stopped hrem ht => exact absurd hrem hr
  | kept hi hr ht =>
    rw [ht]
    exact ⟨hk, howner⟩

/-- The caller owns the slot that its write fills, when the message leaves room for its NUL. -/
theorem owns_insert (i : Fin maxTimers) (hi : d.insertsAt buf = some i)
    (hl : (parseMsg (pad 150 buf.bytes)).length ≤ 127) :
    Owns (d.mytimerWrite cfg now current buf).1 current.pid := by
  have hstored := fillTimer_stored cfg now current i _ _ _ (write_fills cfg now current d buf i hi)
  exact ⟨i, hstored.2.2.2.mpr hl, hstored.1⟩

/-- A slot is owned after a write only if it was owned before, or was just filled. -/
theorem owns_of_write (pid : ℕ) (h : Owns (d.mytimerWrite cfg now current buf).1 pid) :
    Owns d pid ∨ d.insertsAt buf ≠ none ∧ (parseMsg (pad 150 buf.bytes)).length ≤ 127 := by
  obtain ⟨k, hact, howner⟩ := h
  cases write_slot cfg now current d buf k with
  | filled hi ht =>
    have hstored := fillTimer_stored cfg now current k _ _ _ ht
    exact Or.inr ⟨by rw [hi]; simp, hstored.2.2.2.mp hact⟩
  | rearmed hi hr hk ht =>
    rw [ht] at howner
    exact Or.inl ⟨k, hk, howner⟩
  | stopped hr ht =>
    -- a slot that the loop leaves alone is as before
    rw [ht] at hact howner
    unfold Driver.stopTimer at hact howner
    split_ifs at hact howner
    · exact absurd rfl hact
    · exact Or.inl ⟨k, hact, howner⟩
  | kept hi hr ht =>
    rw [ht] at hact howner
    exact Or.inl ⟨k, hact, howner⟩

theorem not_owns_remove (pid : ℕ) (h : ActiveArmed d) (hr : Removes buf) :
    ¬ Owns (d.mytimerWrite cfg now current buf).1 pid := by
  intro howns
  obtain ⟨k, hact, -⟩ := howns
  rw [mytimerWrite_eq, if_pos hr.1, hr.2] at hact
  exact (stopTimer_slot _ (h k).1).2 hact

/-- A slot that is armed after a write was armed before with the same owner and message, or
was just filled. -/
theorem write_keeps_armed (k : Fin maxTimers) (h : ActiveArmed d) (hk : d.insertsAt buf ≠ some k)
    (hp : ((d.mytimerWrite cfg now current buf).1.timers k).timer.pending = true) :
    (d.timers k).timer.pending = true ∧
      ((d.mytimerWrite cfg now current buf).1.timers k).ownerPid = (d.timers k).ownerPid ∧
      ((d.mytimerWrite cfg now current buf).1.timers k).msg = (d.timers k).msg := by
  cases write_slot cfg now current d buf k with
  | filled hi ht => exact absurd hi hk
  | rearmed hi hr hact ht =>
    rw [ht]
    exact ⟨(h k).1 hact, rfl, rfl⟩
  | stopped hr ht =>
    rw [ht] at hp ⊢
    unfold Driver.stopTimer at hp ⊢
    split_ifs at hp ⊢
    · cases hp
    · exact ⟨hp, rfl, rfl⟩
  | kept hi hr ht =>
    rw [ht] at hp ⊢
    exact ⟨hp, rfl, rfl⟩

end Write

theorem owns_read (cfg : Config) (now : ℕ) (d : Driver) (count pos pid : ℕ) :
    Owns (d.mytimerRead cfg now count pos).1 pid ↔ Owns d pid := by
  rw [mytimerRead_fst]
  rfl

section Fire
variable (d : Driver)

/-- A firing signals the owner of its slot, disarms that slot and touches no other. -/
theorem expire_cases (k : Fin maxTimers) (r : Driver × ℕ) (h : ActiveArmed d)
    (hp : (d.timers k).timer.pending = true) (he : d.expire k = some r) :
    r.2 = (d.timers k).ownerPid ∧ ActiveArmed r.1 ∧ ¬ (r.1.timers k).Active ∧
      (r.1.timers k).timer.pending = false ∧ ∀ j, j ≠ k → r.1.timers j = d.timers j := by
  have harmed := activeArmed_expire d r.1 r.2 k h hp he
  rw [expire_eq d k ((h k).2 hp)] at he
  obtain rfl := Option.some.inj he
  refine ⟨rfl, harmed, ?_, ?_, ?_⟩
  · simp [TimerInfo.Active]
  · simp
  · intro j hj
    exact Function.update_of_ne hj _ _

/-- Whoever loses its slot to a firing is the one that is signalled. -/
theorem owns_expire (k : Fin maxTimers) (r : Driver × ℕ) (h : ActiveArmed d)
    (hp : (d.timers k).timer.pending = true) (he : d.expire k = some r) (pid : ℕ)
    (howns : Owns d pid) : Owns r.1 pid ∨ r.2 = pid := by
  obtain ⟨hr, -, -, -, hother⟩ := expire_cases d k r h hp he
  obtain ⟨j, hact, howner⟩ := howns
  by_cases hj : j = k
  · -- the slot it owned is the one that fires
    subst hj
    exact Or.inr (hr.trans howner)
  · have hsame := hother j hj
    exact Or.inl ⟨j, by rwa [hsame], by rwa [hsame]⟩

end Fire

end DevKota.Lab3
