import DevKota.Lab3Refinement

/-! What `mytimer_exit` leaves behind. Its loop is bounded by the capacity of the moment, and
nothing takes a timer out of the wheel that was set up anew while it was pending. -/
namespace DevKota.Lab3
open CString Kernel SlotMap Runs

/-- No timer can run in the unloaded module and the table is empty. -/
def Driver.Unloaded (d : Driver) : Prop :=
  (∀ k, (d.timers k).timer.pending = false) ∧ (∀ k, ¬ (d.timers k).Active) ∧
    d.numberActiveTimers = 0

/-- One pass keeps the invariant and stops its slot when the slot is below the capacity. -/
theorem exitPass_effect (d : Driver) (h : Inv d) (i : Fin maxTimers) :
    Inv (d.exitPass i) ∧ (d.exitPass i).allowedTimers = d.allowedTimers ∧
      (((d.exitPass i).timers i).Active ↔
        (d.timers i).Active ∧ d.allowedTimers ≤ (i.val:ℤ)) ∧
      ∀ j, j ≠ i → (d.exitPass i).timers j = d.timers j := by
  have hap := (h.slot i).active_iff_pending
  unfold Driver.exitPass
  split_ifs with hc
  · -- the slot is below the capacity and in use: it is emptied and counted down
    obtain ⟨hlt, hp, hact⟩ := hc
    have hstop := stopTimer_slot (d.timers i) hap.mp
    have hfree := update_free d.slots h.keyed i _ _ (slot_of_active _ hact)
    have hs : SlotInv i (Driver.stopTimer (d.timers i)) := by
      have hpend : (Driver.stopTimer (d.timers i)).timer.pending = false := by
        simp [Driver.stopTimer, hp, hact]
      have hterm : (Driver.stopTimer (d.timers i)).Terminated := by
        simpa [Driver.stopTimer, hp, hact, TimerInfo.Terminated] using (h.slot i).terminated
      exact slotInv_idle i _ hstop.2 hpend hterm
    refine ⟨?_, rfl, ?_, ?_⟩
    · have hn := h.count
      have he := hfree.2.2
      apply (inv_store d _ i (Driver.stopTimer (d.timers i)) h _ _ hs _ _).1
      · rfl
      · rfl
      · rw [hstop.1]; exact hfree.1
      · rw [hstop.1]
        change d.numberActiveTimers - 1 = _
        omega
    · simp only [setTimer_timers, Function.update_self, hstop.2, false_iff, not_and, not_le]
      exact fun _ => hlt
    · intro j hj
      simp [hj]
  · -- an active slot is armed, so only the capacity can have kept it
    refine ⟨h, rfl, ⟨fun hact => ⟨hact, ?_⟩, fun hact => hact.1⟩, fun _ _ => rfl⟩
    by_contra hlt
    exact hc ⟨by omega, hap.mp hact, hact⟩

/-- After the loop a slot is active exactly when it was and lies at or above the capacity. -/
theorem mytimerExit_effect (d : Driver) (h : Inv d) :
    Inv d.mytimerExit ∧ ∀ k, (d.mytimerExit.timers k).Active ↔
      (d.timers k).Active ∧ d.allowedTimers ≤ (k.val:ℤ) := by
  have hexit : d.mytimerExit = (d.exitPass 0).exitPass 1 := rfl
  obtain ⟨h0, ha0, hk0, ho0⟩ := exitPass_effect d h 0
  obtain ⟨h1, -, hk1, ho1⟩ := exitPass_effect (d.exitPass 0) h0 1
  rw [hexit]
  refine ⟨h1, fun k => ?_⟩
  obtain rfl | rfl := slot_cases k
  · rw [ho1 0 (by decide)]
    exact hk0
  · rw [ha0, ho0 1 (by decide)] at hk1
    exact hk1

/-- Unloading leaves nothing armed exactly when every active slot lies below the capacity. -/
theorem mytimerExit_unloaded_iff (cfg : Config) (load : ℕ) (s : State)
    (h : Reach (step cfg) MsgFits (loaded load) s) :
    s.driver.mytimerExit.Unloaded ↔
      ∀ k, (s.driver.timers k).Active → (k.val:ℤ) < s.driver.allowedTimers := by
  obtain ⟨hinv, hact⟩ := mytimerExit_effect s.driver (inv_reach cfg load s h)
  constructor
  · intro hu k hk
    by_contra hge
    exact hu.2.1 k ((hact k).mpr ⟨hk, by omega⟩)
  · intro hlt
    have hnone (k : Fin maxTimers) : ¬ (s.driver.mytimerExit.timers k).Active := by
      intro hk
      have hk' := (hact k).mp hk
      have := hlt k hk'.1
      omega
    refine ⟨fun k => ?_, hnone, ?_⟩
    · -- the passes keep the invariant, so idle slots are unarmed and not counted
      rw [← Bool.not_eq_true]
      exact fun hp => hnone k ((hinv.slot k).active_iff_pending.mpr hp)
    · rw [hinv.count, occupied_slots]
      simp [hnone]

set_option maxRecDepth 8192 in
theorem mytimerExit_unloaded_iff_run :
    ∃ s, Reach (step sampleConfig) MsgFits (loaded 0) s ∧ (s.driver.timers 0).Active ∧
      s.driver.mytimerExit.Unloaded := by
  obtain ⟨s, hs, hp⟩ := exists_reach_of_run (step sampleConfig) (loaded 0) msgFits_of_check
    [sampleWrite 7 (by decide) "-s 5 bob"]
    (fun s => (s.driver.timers 0).Active ∧ ¬ (s.driver.timers 1).Active ∧
      s.driver.allowedTimers = 1) (by decide)
  obtain ⟨h0, h1, ha⟩ := of_decide_eq_true hp
  refine ⟨s, hs, h0, (mytimerExit_unloaded_iff sampleConfig 0 s hs).mpr fun k hk => ?_⟩
  obtain rfl | rfl := slot_cases k
  · rw [ha]; decide
  · exact absurd hk h1

set_option maxRecDepth 8192 in
/-- Two timers, then the capacity lowered to one: the second timer stays armed. -/
theorem mytimerExit_leaves_timer :
    ¬ ∀ (cfg : Config) (load : ℕ) (s : State),
      Reach (step cfg) MsgFits (loaded load) s → s.driver.mytimerExit.Unloaded := by
  intro hall
  obtain ⟨s, hs, hp⟩ := exists_reach_of_run (step sampleConfig) (loaded 0) msgFits_of_check
    [sampleWrite 7 (by decide) "-m 2 x", sampleWrite 7 (by decide) "-s 5 A",
      sampleWrite 8 (by decide) "-s 3 B", sampleWrite 9 (by decide) "-m 1 x"]
    (fun s => (s.driver.mytimerExit.timers 1).timer.pending = true) (by decide)
  have hclean := (hall sampleConfig 0 s hs).1 1
  rw [of_decide_eq_true hp] at hclean
  cases hclean

/-- The wheel points to no timer from before it was set up. -/
def Driver.Unstray (d : Driver) : Prop := ∀ k, (d.timers k).timer.stray = false

instance (d : Driver) : Decidable d.Unstray := inferInstanceAs (Decidable (∀ _, _))

section Stray
variable (cfg : Config) (now : ℕ) (current : Task) (d : Driver)

/-- A copy leaves what each of its stores leaves. -/
theorem myStrcpy_keeps {σ α : Type} (f : σ → α) (store : σ → ℕ → Byte → σ)
    (hf : ∀ m i b, f (store m i b) = f m) (src : List Byte) (i : ℕ) (m : σ) :
    f (myStrcpy store src i m) = f m := by
  induction src generalizing i m with
  | nil => exact hf m i 0
  | cons c src ih =>
    rw [myStrcpy]
    split_ifs
    · rw [ih, hf]
    · exact hf m i 0

theorem storeMsg_timer (t : TimerInfo) (i : ℕ) (b : Byte) : (t.storeMsg i b).timer = t.timer := by
  unfold TimerInfo.storeMsg
  split_ifs <;> rfl

theorem storeCommand_timer (t : TimerInfo) (i : ℕ) (b : Byte) :
    (t.storeCommand i b).timer = t.timer := by
  unfold TimerInfo.storeCommand
  split_ifs
  · rfl
  · exact storeMsg_timer t _ b

/-- Filling a slot sets its timer up, whether or not that is pending. -/
theorem fillTimer_stray (i : Fin maxTimers) (sec : Word) (m : List Byte) (t : TimerInfo) :
    (Driver.fillTimer cfg now current i sec m t).timer.stray =
      (t.timer.stray || t.timer.pending) := by
  have hmsg := myStrcpy_keeps TimerInfo.timer _ storeMsg_timer (pad 129 m) 0 { t with active := 1 }
  simp only [Driver.fillTimer, TimerList.modTimer, TimerList.setup,
    myStrcpy_keeps TimerInfo.timer _ storeCommand_timer, hmsg]

/-- A store whose timer is as stray as the old one leaves all of them so. -/
theorem setTimer_stray (i k : Fin maxTimers) (t : TimerInfo)
    (ht : t.timer.stray = (d.timers i).timer.stray) :
    ((d.setTimer i t).timers k).timer.stray = (d.timers k).timer.stray := by
  by_cases hk : k = i
  · rw [hk]
    simpa using ht
  · simp [hk]

theorem stopTimer_stray (t : TimerInfo) : (Driver.stopTimer t).timer.stray = t.timer.stray := by
  unfold Driver.stopTimer
  split_ifs <;> rfl

theorem mytimerExit_stray (k : Fin maxTimers) :
    (d.mytimerExit.timers k).timer.stray = (d.timers k).timer.stray := by
  have hpass (d : Driver) (i : Fin maxTimers) :
      ((d.exitPass i).timers k).timer.stray = (d.timers k).timer.stray := by
    unfold Driver.exitPass
    split_ifs
    · exact setTimer_stray d i k _ (stopTimer_stray _)
    · rfl
  have hexit : d.mytimerExit = (d.exitPass 0).exitPass 1 := rfl
  rw [hexit, hpass, hpass]

/-- A handler clears the flag of its slot and nothing else there. -/
theorem mytimerHandler_stray (i k : Fin maxTimers) :
    ((d.mytimerHandler i).1.timers k).timer.stray = (d.timers k).timer.stray :=
  setTimer_stray { d with numberActiveTimers := d.numberActiveTimers - 1 } i k
    { d.timers i with active := 0 } rfl

theorem expire_stray (i k : Fin maxTimers) (r : Driver × ℕ) (h : d.expire i = some r) :
    (r.1.timers k).timer.stray = (d.timers k).timer.stray := by
  have hdetach (j : Fin maxTimers) := setTimer_stray d i j
    { d.timers i with timer := (d.timers i).timer.delTimer } rfl
  cases hf : (d.timers i).timer.function with
  | none =>
    rw [Driver.expire, hf] at h
    cases h
  | some f =>
    rw [Driver.expire, hf] at h
    cases f <;>
    · obtain rfl := Option.some.inj h
      exact (mytimerHandler_stray _ _ k).trans (hdetach k)

/-- A set command with a new message finds room and takes a slot without a flag, the timer of which
is pending. -/
def Restarts (d : Driver) (buf : UserBuf) (k : Fin maxTimers) : Prop :=
  accepted buf ∧ commandOf buf = .set ∧ d.findMsg (parseMsg (pad 150 buf.bytes)) = none ∧
    d.numberActiveTimers < d.allowedTimers ∧ d.findInactive = some k ∧
      (d.timers k).timer.pending = true

/-- A set command leaves in the wheel what was left before, and the pending timer of the slot that a
new message takes. -/
theorem writeSet_stray (userBuf : List Byte) (k : Fin maxTimers) :
    ((d.writeSet cfg now current userBuf).timers k).timer.stray = true ↔
      (d.timers k).timer.stray = true ∨ (d.findMsg (parseMsg userBuf) = none ∧
        d.numberActiveTimers < d.allowedTimers ∧ d.findInactive = some k ∧
          (d.timers k).timer.pending = true) := by
  unfold Driver.writeSet
  cases hf : d.findMsg (parseMsg userBuf) with
  | some j =>
    -- an update only moves the deadline
    have hmoved := setTimer_stray d j k
      (Driver.updateTimer cfg now (parseSec userBuf) (d.timers j)) rfl
    rw [setTimer_timers] at hmoved
    simp [hmoved]
  | none =>
    by_cases hroom : d.numberActiveTimers < d.allowedTimers
    · rw [if_pos hroom]
      cases hi : d.findInactive with
      | none => simp
      | some i =>
        -- the slot that is filled, or the other one
        by_cases hk : k = i
        · subst hk
          simp [fillTimer_stray, hroom]
        · have hk' : i ≠ k := fun h => hk h.symm
          simp [hk, hk']
    · simp [hroom]

/-- The timers that a write leaves in the wheel are those that were left before and the one that it
restarts. -/
theorem mytimerWrite_stray (buf : UserBuf) (k : Fin maxTimers) :
    ((d.mytimerWrite cfg now current buf).1.timers k).timer.stray = true ↔
      (d.timers k).timer.stray = true ∨ Restarts d buf k := by
  rw [mytimerWrite_eq]
  unfold Restarts
  by_cases ha : accepted buf
  · rw [if_pos ha]
    cases hc : commandOf buf with
    | remove => simp [Driver.writeRemove, stopTimer_stray]
    | capacity => simp
    | other => simp
    | set => simp only [ha, true_and, writeSet_stray]
  · simp [ha]

/-- The write that an event makes restarts a timer. -/
def Restarted (s : State) : Event → Prop
  | .write _ buf => ∃ k, Restarts s.driver buf k
  | _ => False

theorem unstray_iff (d : Driver) :
    d.Unstray ↔ ¬ ∃ k, (d.timers k).timer.stray = true := by
  simp [Driver.Unstray]

theorem step_unstray_iff (s t : State) (e : Event) (hs : step cfg s e = some t) :
    t.driver.Unstray ↔ s.driver.Unstray ∧ ¬ Restarted s e := by
  rw [unstray_iff, unstray_iff, ← not_or]
  apply not_congr
  cases e with
  | tick ticks =>
    obtain rfl := Option.some.inj hs
    simp [Restarted]
  | write current buf =>
    obtain rfl := Option.some.inj hs
    simp only [mytimerWrite_stray, exists_or, Restarted]
  | fire k =>
    simp only [step] at hs
    split_ifs at hs
    obtain ⟨r, hr, rfl⟩ := Option.map_eq_some_iff.mp hs
    simp [expire_stray s.driver k _ r hr, Restarted]
  | read count pos =>
    obtain rfl := Option.some.inj hs
    rw [mytimerRead_fst]
    simp [Driver.prepareReadMsg, Restarted]
  | procRead =>
    obtain rfl := Option.some.inj hs
    simp [Restarted]

end Stray

/-- At the end of a run the wheel points to no timer from before a set-up exactly when no set
command of the run has filled a slot whose timer was pending. -/
theorem unstray_iff_unrestarted (cfg : Config) (load : ℕ) (es : List Event) (s : State)
    (h : run (step cfg) (fun _ _ => true) (loaded load) es = some s) :
    s.driver.Unstray ↔ Meets (step cfg) (fun s e => ¬ Restarted s e) (loaded load) es := by
  have hstep := step_unstray_iff cfg
  -- once a timer is stray it stays so
  have hlast : Always (step cfg) (fun s => s.driver.Unstray) (loaded load) es ↔ s.driver.Unstray :=
    always_iff_last (fun s e t hs _ hst ht => hs ((hstep s t e hst).mp ht).1) h
  rw [← hlast]
  refine always_iff_meets (I := fun _ => True) (fun _ _ _ _ _ _ => trivial) ?_ h trivial ?_
  · intro s e t _ hs _ hst
    rw [hstep s t e hst]
    exact and_iff_right hs
  · intro k
    rfl

/-- A message of 128 bytes clears the flag of its slot, and the next command takes that slot. -/
example : (run (step sampleConfig) (fun _ _ => true) (loaded 0)
    [sampleWrite 7 (by decide) "-m 2 x",
      .write (sampleTask 7 (by decide)) ⟨ascii "-s 5 " ++ List.replicate 128 97 ++ [0], true⟩,
      sampleWrite 8 (by decide) "-s 9 bob"]).any (fun s => ¬ s.driver.Unstray) = true := by
  decide +kernel

end DevKota.Lab3
