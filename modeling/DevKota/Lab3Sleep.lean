import DevKota.Lab3System

/-! Whether a client of the lab3 driver can sleep in `pause()` with nobody left to wake it. -/
namespace DevKota.Lab3
open CString Kernel Runs
attribute [local irreducible] Driver.mytimerWrite Driver.mytimerRead Driver.mytimerProcShow
  Driver.insertsAt

/-- Each client blocked in `pause()` owns an active slot or has a SIGIO on its way. -/
def SleepersCovered (s : Sys) : Prop :=
  ∀ p c, s.procs p = some c → c.phase = .paused → Owns s.driver p ∨ c.sigio = true

/-- The same for clients that have made their write and are about to call `pause()`. -/
def WaitersCovered (s : Sys) : Prop :=
  ∀ p c, s.procs p = some c → c.phase.waiting = true → Owns s.driver p ∨ c.sigio = true

/-- The driver takes the set command as a new timer of the caller, with room for the NUL. -/
def Inserts (d : Driver) (buf : UserBuf) : Prop :=
  d.insertsAt buf ≠ none ∧ (parseMsg (pad 150 buf.bytes)).length ≤ 127

instance (d : Driver) (buf : UserBuf) : Decidable (Inserts d buf) :=
  inferInstanceAs (Decidable (_ ∧ _))

/-- What the steps must respect so that no wakeup is lost: a client that decided to wait gets
its timer, SIGIO does not come between the write and `pause()`, and `-r` does not take a timer
from a client it has not killed. A client that owns another slot, or that has a SIGIO
pending, is excused. -/
def KeepsWakeups (s : Sys) : SysEvent → Prop
  | .act pid _ => ∀ c v, s.procs pid = some c → c.job = .invoke v →
      (c.phase = .decided .created →
        Inserts s.driver v.written ∨ Owns s.driver pid ∨ c.sigio = true) ∧
      (c.phase = .killing [] → accepted v.written →
        ∀ q b, s.procs q = some b → b.phase.waiting = true → b.sigio = true)
  | .deliver pid => ∀ c, s.procs pid = some c → c.phase = .written → Owns s.driver pid
  | _ => True

theorem covered_of_waiters (s : Sys) (h : WaitersCovered s) : SleepersCovered s := by
  intro p c hc hp
  apply h p c hc
  rw [hp]
  rfl

theorem waiters_update (s t : Sys) (pid : ℕ) (c' : Option Proc)
    (ht : t.procs = Function.update s.procs pid c')
    (hothers : ∀ q c, s.procs q = some c → c.phase.waiting = true → Owns t.driver q ∨ c.sigio = true)
    (hself : ∀ c, c' = some c → c.phase.waiting = true → Owns t.driver pid ∨ c.sigio = true) :
    WaitersCovered t := by
  intro p c hp hw
  rcases Sys.procs_cases s t pid c' ht p c hp with ⟨rfl, hnew⟩ | ⟨-, hold⟩
  · exact hself c hnew hw
  · exact hothers p c hold hw

theorem waiters_moveTo (s s' : Sys) (c : Proc) (next : Phase) (hs' : s'.procs = s.procs)
    (hn : next.waiting = false)
    (hothers : ∀ q b, s.procs q = some b → b.phase.waiting = true →
      Owns s'.driver q ∨ b.sigio = true) : WaitersCovered (s'.moveTo c next) := by
  apply waiters_update s _ c.task.pid (some { c with phase := next })
  · rw [Sys.moveTo_eq, Sys.setProc_procs, hs']
  · exact hothers
  · intro b hb hw
    rw [← Option.some.inj hb] at hw
    change next.waiting = true at hw
    rw [hn] at hw
    cases hw

section Step
variable (cfg : Config) (s : Sys) (h : WaitersCovered s)
include h

theorem waiters_goto (hok : ClientsOk s) (pid : ℕ) (c : Proc) (next : Phase)
    (hc : s.procs pid = some c) (hfits : (Action.goto next).Fits c) :
    WaitersCovered (s.moveTo c next) := by
  obtain rfl := (hok pid c hc).pid
  rcases hfits with ⟨rfl, hp⟩ | ⟨hn, -⟩
  · -- from the write to `pause()`: covered before, covered after
    refine waiters_update s _ c.task.pid _ rfl h ?_
    intro b hb _
    rw [← Option.some.inj hb]
    apply h c.task.pid c hc
    rw [hp]
    rfl
  · exact waiters_moveTo s s c next rfl hn h

theorem waiters_write (hok : ClientsOk s) (pid : ℕ) (c : Proc) (v : Invocation) (next : Phase)
    (junk : Junk) (hc : s.procs pid = some c) (hfits : (Action.write v next).Fits c)
    (hg : KeepsWakeups s (.act pid junk)) :
    WaitersCovered ((s.write cfg c v.written).moveTo c next) := by
  obtain rfl := (hok pid c hc).pid
  obtain ⟨hj, hv⟩ := hfits
  have hcommand := commandOf_written v
  -- nobody loses a slot to a write that is not a removal
  have hkeep (hr : ¬ Removes v.written) (q : ℕ) (b : Proc)
      (hb : s.procs q = some b) (hw : b.phase.waiting = true) :
      Owns (s.write cfg c v.written).driver q ∨ b.sigio = true := by
    rcases h q b hb hw with howns | hsig
    · exact Or.inl (owns_write cfg s.now c.task s.driver v.written q hr howns)
    · exact Or.inr hsig
  cases v with
  | count n third =>
    refine waiters_moveTo s (s.write cfg c _) c next rfl (by rw [hv.2]; rfl) ?_
    exact hkeep (by rw [Removes, hcommand]; simp)
  | remove second third =>
    refine waiters_moveTo s (s.write cfg c _) c next rfl (by rw [hv.2]; rfl) ?_
    by_cases ha : accepted (Invocation.remove second third).written
    · -- every slot is gone, so all waiting clients need their signal
      intro q b hb hw
      exact Or.inr ((hg c _ hc hj).2 hv.1 ha q b hb hw)
    · exact hkeep fun hr => ha hr.1
  | set sec msg =>
    have hset : ¬ Removes (Invocation.set sec msg).written := by
      rw [Removes, hcommand]
      simp
    rcases hv with ⟨hp, rfl⟩ | ⟨-, rfl⟩
    · -- the client that will wait: its write has to give it a slot
      refine waiters_update s _ c.task.pid _ rfl (hkeep hset) ?_
      intro b hb _
      rw [← Option.some.inj hb]
      rcases (hg c _ hc hj).1 hp with ⟨hins, hl⟩ | howns | hsig
      · obtain ⟨i, hi⟩ := Option.ne_none_iff_exists'.mp hins
        exact Or.inl (owns_insert cfg s.now c.task s.driver _ i hi hl)
      · exact Or.inl (owns_write cfg s.now c.task s.driver _ _ hset howns)
      · exact Or.inr hsig
    · exact waiters_moveTo s _ c .updating rfl rfl (hkeep hset)

theorem waiters_deliver (pid : ℕ) (c : Proc) (hc : s.procs pid = some c)
    (hg : KeepsWakeups s (.deliver pid)) : WaitersCovered (s.deliver pid c) := by
  unfold Sys.deliver
  split
  · refine waiters_update s _ pid none rfl h ?_
    intro b hb
    cases hb
  · refine waiters_update s _ pid _ rfl h ?_
    intro b hb hw
    rw [← Option.some.inj hb] at hw
    cases hw
  · refine waiters_update s _ pid _ rfl h ?_
    intro b hb hw
    rename_i hpaused
    rw [← Option.some.inj hb] at hw
    -- the signal is used up: a client that has written must still have its slot
    rcases waiting_cases c.phase hw with hp | hp
    · exact Or.inl (hg c hc hp)
    · exact absurd hp hpaused

theorem waiters_fire (harmed : ActiveArmed s.driver) (k : Fin maxTimers) (r : Driver × ℕ)
    (hx : (s.driver.timers k).timer.Expired s.now) (hr : s.driver.expire k = some r) :
    WaitersCovered ({ s with driver := r.1 }.signal r.2) := by
  intro p c hp hw
  change Function.update s.procs r.2 _ p = some c at hp
  by_cases hpp : p = r.2
  · -- the owner of the slot: its signal is pending now
    subst hpp
    rw [Function.update_self] at hp
    obtain ⟨b, -, rfl⟩ := Option.map_eq_some_iff.mp hp
    exact Or.inr rfl
  · rw [Function.update_of_ne hpp] at hp
    rcases h p c hp hw with howns | hsig
    · rcases owns_expire s.driver k r harmed hx.1 hr p howns with hkept | hpid
      · exact Or.inl hkept
      · exact absurd hpid.symm hpp
    · exact Or.inr hsig

/-- A step that respects the wakeups keeps every waiting client covered. -/
theorem waiters_step (hok : ClientsOk s) (harmed : ActiveArmed s.driver) (t : Sys) (e : SysEvent)
    (hg : KeepsWakeups s e) (hs : sysStep cfg s e = some t) : WaitersCovered t := by
  cases e with
  | tick ticks =>
    obtain rfl := Option.some.inj hs
    exact h
  | start task pgrp job =>
    obtain ⟨-, rfl⟩ := start_cases cfg s t task pgrp job hs
    -- a process that has just started does not wait
    refine waiters_update s _ task.pid _ rfl h ?_
    intro c hc hw
    rw [← Option.some.inj hc] at hw
    cases hw
  | act pid junk =>
    obtain ⟨c, a, hc, hfits, rfl⟩ := act_cases cfg s t pid junk hs
    cases a with
    | goto next => exact waiters_goto s h hok pid c next hc hfits
    | readDevice =>
      refine waiters_moveTo s { s with driver := (s.driver.mytimerRead cfg s.now 149 0).1 } c _
        rfl rfl ?_
      intro q b hb hw
      rw [owns_read]
      exact h q b hb hw
    | readProc => exact waiters_moveTo s s c _ rfl rfl h
    | write v next => exact waiters_write cfg s h hok pid c v next junk hc hfits hg
    | printUpdated next => exact waiters_moveTo s _ c next rfl (by rw [hfits.2]; rfl) h
    | kill z next =>
      obtain ⟨⟨pids, rfl⟩, -⟩ := hfits
      intro p b hb hw
      exact waiters_moveTo s s c _ rfl rfl h p b (Sys.kill_procs _ c b z p hb) hw
    | exit =>
      refine waiters_update s _ c.task.pid none rfl h ?_
      intro b hb
      cases hb
  | deliver pid =>
    obtain ⟨c, hc, -, rfl⟩ := deliver_cases cfg s t pid hs
    exact waiters_deliver s h pid c hc hg
  | fire k =>
    obtain ⟨hx, r, hr, rfl⟩ := fire_cases cfg s t k hs
    exact waiters_fire s h harmed k r hx hr

end Step

theorem waiters_reach (cfg : Config) (load : ℕ) (s : Sys)
    (h : Reach (sysStep cfg) KeepsWakeups (.booted load) s) : WaitersCovered s := by
  apply reach_invariant_with (J := fun s => ClientsOk s ∧ ActiveArmed s.driver) ?_ ?_ h
  · intro p c hc
    cases hc
  · intro t ht
    exact ⟨sys_clients cfg load KeepsWakeups t ht, sys_armed cfg load KeepsWakeups t ht⟩
  · intro s e t hJ _ hI hg hs
    exact waiters_step cfg s hI hJ.1 hJ.2 t e hg hs

/-- In every run whose steps respect the wakeups, each client blocked in `pause()` owns an
active timer or has a SIGIO pending. -/
theorem sleepers_covered (cfg : Config) (load : ℕ) (s : Sys)
    (h : Reach (sysStep cfg) KeepsWakeups (.booted load) s) : SleepersCovered s :=
  covered_of_waiters s (waiters_reach cfg load s h)

section Exact
variable (cfg : Config) (s t : Sys)

/-- The only step of a client behind its last SIGKILL is the removal. -/
theorem killed_step (pid : ℕ) (junk : Junk) (c : Proc) (v : Invocation) (hc : s.procs pid = some c)
    (hj : c.job = .invoke v) (hp : c.phase = .killing [])
    (hs : sysStep cfg s (.act pid junk) = some t) :
    commandOf v.written = .remove ∧ t = (s.write cfg c v.written).moveTo c .finishing := by
  have hcommand := commandOf_written v
  simp only [sysStep, hc, Option.bind_some, Proc.nextAction, hp, hj] at hs
  cases v with
  | set sec msg => cases hs
  | count n third => cases hs
  | remove second third => exact ⟨hcommand, (Option.some.inj hs).symm⟩

theorem wakeups_of_act (hok : ClientsOk s) (harmed : ActiveArmed s.driver) (pid : ℕ) (junk : Junk)
    (hs : sysStep cfg s (.act pid junk) = some t) (ht : WaitersCovered t) :
    KeepsWakeups s (.act pid junk) := by
  intro c v hc hj
  obtain rfl := (hok pid c hc).pid
  constructor
  · intro hp
    obtain rfl := created_step cfg s t _ junk c v hc hj hp hs
    -- the writer itself is waiting now
    have hself := ht c.task.pid { c with phase := .written } (Function.update_self _ _ _) rfl
    rcases hself with howns | hsig
    · rcases owns_of_write cfg s.now c.task s.driver v.written _ howns with hown | hins
      · exact Or.inr (Or.inl hown)
      · exact Or.inl hins
    · exact Or.inr (Or.inr hsig)
  · intro hp ha q b hb hw
    -- after the removal nobody owns a slot, so what covers `b` is its signal
    obtain ⟨hcommand, rfl⟩ := killed_step cfg s t _ junk c v hc hj hp hs
    have hq : q ≠ c.task.pid := by
      intro hq
      rw [hq, hc] at hb
      obtain rfl := Option.some.inj hb
      rw [hp] at hw
      cases hw
    have hother := ht q b (by
      rw [Sys.moveTo_eq, Sys.setProc_procs, Function.update_of_ne hq]
      exact hb) hw
    rcases hother with howns | hsig
    · exact absurd howns (not_owns_remove cfg s.now c.task s.driver _ q harmed ⟨ha, hcommand⟩)
    · exact hsig

theorem wakeups_of_deliver (pid : ℕ) (hs : sysStep cfg s (.deliver pid) = some t)
    (ht : WaitersCovered t) : KeepsWakeups s (.deliver pid) := by
  intro c hc hp
  obtain ⟨b, hb, -, rfl⟩ := deliver_cases cfg s t pid hs
  rw [hc] at hb
  obtain rfl := Option.some.inj hb
  -- the signal is used up and the client still waits
  have hself := ht pid { c with sigio := false } (by simp [Sys.deliver, hp]) (by
    change c.phase.waiting = true
    rw [hp]
    rfl)
  rcases hself with howns | hsig
  · simpa [Sys.deliver, hp] using howns
  · cases hsig

/-- Among covered clients the condition on a step is exact. -/
theorem keepsWakeups_iff (h : WaitersCovered s) (hok : ClientsOk s) (harmed : ActiveArmed s.driver)
    (e : SysEvent) (hs : sysStep cfg s e = some t) : KeepsWakeups s e ↔ WaitersCovered t := by
  constructor
  · intro hg
    exact waiters_step cfg s h hok harmed t e hg hs
  · intro ht
    cases e with
    | act pid junk => exact wakeups_of_act cfg s t hok harmed pid junk hs ht
    | deliver pid => exact wakeups_of_deliver cfg s t pid hs ht
    | tick ticks => trivial
    | start task pgrp job => trivial
    | fire k => trivial

/-- A step that misses the condition leads to a client that sleeps with nobody left to wake it,
at once or when that client calls `pause()`. -/
theorem sleeper_lost (load : ℕ) (e : SysEvent) (junk : Junk)
    (h : Reach (sysStep cfg) KeepsWakeups (.booted load) s) (hs : sysStep cfg s e = some t)
    (hg : ¬ KeepsWakeups s e) :
    ¬ SleepersCovered t ∨
      ∃ pid u, sysStep cfg t (.act pid junk) = some u ∧ ¬ SleepersCovered u := by
  have hok := sys_clients cfg load KeepsWakeups s h
  have hok' := clientsOk_step cfg s t e hok hs
  rw [keepsWakeups_iff cfg s t (waiters_reach cfg load s h) hok
    (sys_armed cfg load KeepsWakeups s h) e hs] at hg
  simp only [WaitersCovered, not_forall] at hg
  obtain ⟨p, c, hc, hw, hlost⟩ := hg
  rcases waiting_cases c.phase hw with hp | hp
  · -- `pause()` is that client's next step, whatever the others do
    right
    obtain ⟨sec, msg, hj⟩ := (hok' p c hc).sets hw
    obtain rfl := (hok' p c hc).pid
    refine ⟨c.task.pid, t.moveTo c .paused, ?_, ?_⟩
    · simp [sysStep, hc, Proc.nextAction, hp, hj, setSteps, Sys.perform]
    · intro hall
      exact hlost (hall c.task.pid { c with phase := .paused } (Function.update_self _ _ _) rfl)
  · left
    intro hall
    exact hlost (hall p c hc hp)

end Exact

/-- Decides the condition for steps that are not the write of `-r`. -/
def keepsWakeupsCheck (s : Sys) : SysEvent → Bool
  | .act pid _ =>
    match s.procs pid with
    | some c =>
      match c.job with
      | .invoke v => c.phase ≠ .killing [] ∧ (c.phase ≠ .decided .created ∨ Inserts s.driver v.written)
      | .list => true
    | none => true
  | .deliver pid => (s.procs pid).all fun c => c.phase ≠ .written
  | _ => true

theorem keepsWakeups_of_check (s : Sys) (e : SysEvent) (h : keepsWakeupsCheck s e = true) :
    KeepsWakeups s e := by
  cases e with
  | act pid junk =>
    intro c v hc hj
    simp only [keepsWakeupsCheck, hc, hj, decide_eq_true_eq] at h
    refine ⟨fun hp => ?_, fun hp => absurd hp h.1⟩
    rcases h.2 with hn | hins
    · exact absurd hp hn
    · exact Or.inl hins
  | deliver pid =>
    intro c hc hp
    simp [keepsWakeupsCheck, hc, hp] at h
  | tick ticks => trivial
  | start task pgrp job => trivial
  | fire k => trivial

theorem sleepers_covered_run : ∃ s, Reach (sysStep sampleConfig) KeepsWakeups (.booted 0) s ∧
    (s.procs 7).any (fun c => c.phase = .paused) = true ∧ SleepersCovered s := by
  obtain ⟨s, hs, hp⟩ := exists_reach_of_run (sysStep sampleConfig) (.booted 0) keepsWakeups_of_check
    (bobWrites ++ [sampleAct 7, .tick 100, .fire 0])
    (fun s => (s.procs 7).any fun c => c.phase = .paused) (by decide +kernel)
  exact ⟨s, hs, hp, sleepers_covered sampleConfig 0 s hs⟩

/-- The timer fires and SIGIO is handled before the client calls `pause()`. -/
theorem sleeper_without_timer : ¬ ∀ (cfg : Config) (load : ℕ) (s : Sys),
    Reach (sysStep cfg) (fun _ _ => True) (.booted load) s → SleepersCovered s := by
  intro hall
  obtain ⟨s, hs, hp⟩ := exists_reach_of_free_run (sysStep sampleConfig) (.booted 0)
    (bobWrites ++ [.tick 100, .fire 0, .deliver 7, sampleAct 7])
    (fun s => (s.procs 7).any fun c => c.phase = .paused ∧ ¬ Owns s.driver 7 ∧ c.sigio = false)
    (by decide +kernel)
  obtain ⟨c, hc, hlost⟩ := (Option.any_eq_true _ _).mp hp
  obtain ⟨hpaused, howns, hsig⟩ := of_decide_eq_true hlost
  rcases hall sampleConfig 0 s hs 7 c hc hpaused with h | h
  · exact howns h
  · rw [hsig] at h
    cases h

end DevKota.Lab3
