import DevKota.DevinSystem

/-! Who is signalled by the older driver, and who is left asleep. -/
namespace DevKota.Devin
open CString Kernel Runs
open Lab3 (Config Arg pad parseSec parseMsg accepted)
attribute [local irreducible] Driver.mytimerWrite

/-- What holds of a running client. The signals it has handled or has still pending are at most
the firings since it registered, and not none if there was one. -/
structure ClientOk (s : Sys) (p : ℕ) (c : Proc) : Prop where
  pid : c.task.pid = p
  queued : p ∈ s.driver.asyncQueue ↔ c.phase.registered = true
  quiet : c.phase.registered = false → c.sigio = false ∧ c.heard = 0
  sets : c.phase.waiting = true → ∃ sec msg, c.job = .set sec msg
  counted : c.phase.registered = true → c.joined + (c.heard + c.sigio.toNat) ≤ s.firings
  reached : c.phase.registered = true → c.joined < s.firings → 0 < c.heard + c.sigio.toNat

structure ClientsOk (s : Sys) : Prop where
  client (p : ℕ) (c : Proc) : s.procs p = some c → ClientOk s p c
  nodup : s.driver.asyncQueue.Nodup
  running (p : ℕ) : p ∈ s.driver.asyncQueue → ∃ c, s.procs p = some c

theorem writeSet_queue (cfg : Config) (now : ℕ) (current : Task) (d : Driver)
    (userBuf : List Byte) :
    (d.writeSet cfg now current userBuf).asyncQueue = d.asyncQueue := by
  simp only [Driver.writeSet]
  split_ifs <;> rfl

theorem mytimerWrite_queue (cfg : Config) (now : ℕ) (current : Task) (d : Driver)
    (buf : UserBuf) : (d.mytimerWrite cfg now current buf).1.asyncQueue = d.asyncQueue := by
  rw [mytimerWrite_eq]
  by_cases ha : accepted buf
  · rw [if_pos ha]
    cases commandOf buf with
    | list =>
      change (d.writeList cfg now).asyncQueue = _
      unfold Driver.writeList
      split_ifs <;> rfl
    | set => exact writeSet_queue cfg now current d _
    | other => rfl
  · rw [if_neg ha]

theorem write_queue (cfg : Config) (s : Sys) (c : Proc) :
    (s.write cfg c).driver.asyncQueue = s.driver.asyncQueue := by
  unfold Sys.write
  split
  · exact mytimerWrite_queue cfg s.now c.task s.driver _
  · rfl

theorem mem_mytimerAsync (d : Driver) (hd : d.asyncQueue.Nodup) (pid q : ℕ) (on : Bool) :
    (q ∈ (d.mytimerAsync pid on).asyncQueue ↔ (q = pid ∧ on = true) ∨ (q ≠ pid ∧ q ∈ d.asyncQueue)) ∧
      (d.mytimerAsync pid on).asyncQueue.Nodup := by
  cases on with
  | true =>
    refine ⟨?_, List.Nodup.insert hd⟩
    change q ∈ d.asyncQueue.insert pid ↔ _
    rw [List.mem_insert_iff]
    by_cases hq : q = pid <;> simp [hq]
  | false =>
    refine ⟨?_, List.Nodup.erase pid hd⟩
    change q ∈ d.asyncQueue.erase pid ↔ _
    rw [List.Nodup.mem_erase_iff hd]
    simp

/-- A step that changes one process, and the queue at most for that one. -/
theorem clientsOk_update (s t : Sys) (h : ClientsOk s) (pid : ℕ) (c' : Option Proc)
    (ht : t.procs = Function.update s.procs pid c') (hf : t.firings = s.firings)
    (hq : ∀ q, q ≠ pid → (q ∈ t.driver.asyncQueue ↔ q ∈ s.driver.asyncQueue))
    (hnd : t.driver.asyncQueue.Nodup) (hself : ∀ b, c' = some b → ClientOk t pid b)
    (hin : pid ∈ t.driver.asyncQueue → ∃ b, c' = some b) : ClientsOk t where
  client p c hp := by
    rcases Sys.procs_cases s t pid c' ht p c hp with ⟨rfl, hnew⟩ | ⟨hne, hold⟩
    · exact hself c hnew
    · have hc := h.client p c hold
      refine ⟨hc.pid, (hq p hne).trans hc.queued, hc.quiet, hc.sets, ?_, ?_⟩
      · rw [hf]; exact hc.counted
      · rw [hf]; exact hc.reached
  nodup := hnd
  running p hp := by
    rw [ht]
    by_cases hpp : p = pid
    · subst hpp
      rw [Function.update_self]
      exact hin hp
    · rw [Function.update_of_ne hpp]
      exact h.running p ((hq p hpp).mp hp)

section Clients
variable (cfg : Config) (s t : Sys) (h : ClientsOk s)
include h

/-- A client that moves on inside the queue, or outside of it. -/
theorem clientsOk_moveTo (s' : Sys) (c : Proc) (next : Phase) (hc : s.procs c.task.pid = some c)
    (hs' : s'.procs = s.procs ∧ s'.firings = s.firings ∧
      s'.driver.asyncQueue = s.driver.asyncQueue)
    (hreg : next.registered = c.phase.registered)
    (hsets : next.waiting = true → ∃ sec msg, c.job = .set sec msg) :
    ClientsOk (s'.moveTo c next) := by
  obtain ⟨hprocs, hfir, hqueue⟩ := hs'
  have hold := h.client _ c hc
  refine clientsOk_update s _ h c.task.pid (some { c with phase := next }) ?_ hfir ?_ ?_ ?_ ?_
  · rw [Sys.moveTo_eq, Sys.setProc_procs, hprocs]
  · intro q _
    change q ∈ s'.driver.asyncQueue ↔ _
    rw [hqueue]
  · change s'.driver.asyncQueue.Nodup
    rw [hqueue]
    exact h.nodup
  · intro b hb
    obtain rfl := Option.some.inj hb
    -- all that is said of a client but its job depends on being registered alone
    refine ⟨rfl, ?_, ?_, hsets, ?_, ?_⟩
    · change c.task.pid ∈ s'.driver.asyncQueue ↔ next.registered = true
      rw [hqueue, hreg]
      exact hold.queued
    · change next.registered = false → _
      rw [hreg]
      exact hold.quiet
    · change next.registered = true → c.joined + _ ≤ s'.firings
      rw [hreg, hfir]
      exact hold.counted
    · change next.registered = true → c.joined < s'.firings → _
      rw [hreg, hfir]
      exact hold.reached
  · exact fun _ => ⟨_, rfl⟩

theorem clientsOk_leave (pid : ℕ) : ClientsOk (s.leave pid) := by
  have hq (q : ℕ) := mem_mytimerAsync s.driver h.nodup pid q false
  refine clientsOk_update s _ h pid none rfl rfl ?_ (hq pid).2 ?_ ?_
  · intro q hne
    change q ∈ (s.driver.mytimerAsync pid false).asyncQueue ↔ _
    rw [(hq q).1]
    simp [hne]
  · intro b hb
    cases hb
  · intro hin
    rcases (hq pid).1.mp hin with ⟨-, hon⟩ | ⟨hne, -⟩
    · cases hon
    · exact absurd rfl hne

theorem clientsOk_listen (c : Proc) (hc : s.procs c.task.pid = some c) (hp : c.phase = .handling) :
    ClientsOk (s.listen c) := by
  have hold := h.client _ c hc
  have hq (q : ℕ) := mem_mytimerAsync s.driver h.nodup c.task.pid q true
  obtain ⟨hsig, hheard⟩ := hold.quiet (by rw [hp]; rfl)
  refine clientsOk_update s _ h c.task.pid
    (some { c with phase := .listening, joined := s.firings }) rfl rfl ?_ (hq 0).2 ?_ ?_
  · intro q hne
    change q ∈ (s.driver.mytimerAsync c.task.pid true).asyncQueue ↔ _
    rw [(hq q).1]
    simp [hne]
  · -- nothing has been signalled yet, and the firings are counted from now on
    intro b hb
    obtain rfl := Option.some.inj hb
    refine ⟨rfl, ?_, fun hr => (by cases hr), fun hw => (by cases hw), fun _ => ?_, fun _ hlt => ?_⟩
    · exact ⟨fun _ => rfl, fun _ => (hq c.task.pid).1.mpr (Or.inl ⟨rfl, rfl⟩)⟩
    · change s.firings + (c.heard + c.sigio.toNat) ≤ s.firings
      rw [hsig, hheard]
      rfl
    · exact absurd hlt (lt_irrefl _)
  · exact fun _ => ⟨_, rfl⟩

theorem clientsOk_deliver (pid : ℕ) (c : Proc) (hc : s.procs pid = some c) (hs : c.sigio = true) :
    ClientsOk (s.deliver pid c) := by
  have hold := h.client pid c hc
  -- a pending signal has found its client in the queue
  have hreg : c.phase.registered = true := by
    by_contra hn
    rw [(hold.quiet (by simpa using hn)).1] at hs
    cases hs
  have hcount := hold.counted hreg
  rw [hs, Bool.toNat_true] at hcount
  have hnext (next : Phase) (hr : next.registered = true)
      (hw : next.waiting = true → c.phase.waiting = true) :
      ClientsOk (s.setProc pid (some { c with
        phase := next, sigio := false, heard := c.heard + 1 })) := by
    refine clientsOk_update s _ h pid _ rfl rfl (fun _ _ => Iff.rfl) h.nodup ?_ fun _ => ⟨_, rfl⟩
    intro b hb
    obtain rfl := Option.some.inj hb
    refine ⟨hold.pid, ?_, ?_, fun hwait => hold.sets (hw hwait), fun _ => ?_, fun _ _ => ?_⟩
    · exact ⟨fun _ => hr, fun _ => hold.queued.mpr hreg⟩
    · intro hn
      change next.registered = false at hn
      rw [hr] at hn
      cases hn
    · exact hcount
    · exact Nat.succ_pos _
  unfold Sys.deliver
  split
  · rename_i hp
    rw [hp] at hreg
    cases hreg
  · exact hnext .finishing rfl (fun hw => by cases hw)
  · exact hnext c.phase hreg id

/-- A firing is pending at once in every registered client. -/
theorem clientsOk_fire (d' : Driver) (hq : d'.asyncQueue = s.driver.asyncQueue) :
    ClientsOk ({ s with driver := d', firings := s.firings + 1 }.signal s.driver.asyncQueue) where
  client p c hp := by
    obtain ⟨b, hb, rfl⟩ := Option.map_eq_some_iff.mp hp
    have hold := h.client p b hb
    by_cases hin : p ∈ s.driver.asyncQueue
    -- in the queue: the signal is pending now, whether or not one was before
    · have hreg := hold.queued.mp hin
      have hcount := hold.counted hreg
      simp only [if_pos hin]
      refine ⟨hold.pid, ?_, ?_, hold.sets, fun _ => ?_, fun _ _ => Nat.succ_pos _⟩
      · change p ∈ d'.asyncQueue ↔ _
        rw [hq]
        exact hold.queued
      · intro hn
        change b.phase.registered = false at hn
        rw [hreg] at hn
        cases hn
      · change b.joined + (b.heard + 1) ≤ s.firings + 1
        omega
    -- out of the queue nothing is counted
    · simp only [if_neg hin]
      have hn (hr : b.phase.registered = true) : False := hin (hold.queued.mpr hr)
      refine ⟨hold.pid, ?_, hold.quiet, hold.sets, fun hr => (hn hr).elim,
        fun hr => (hn hr).elim⟩
      change p ∈ d'.asyncQueue ↔ _
      rw [hq]
      exact hold.queued
  nodup := by
    change d'.asyncQueue.Nodup
    rw [hq]
    exact h.nodup
  running p hp := by
    change p ∈ d'.asyncQueue at hp
    rw [hq] at hp
    obtain ⟨c, hc⟩ := h.running p hp
    refine ⟨{ c with sigio := true }, ?_⟩
    simp only [Sys.signal, hc, Option.map_some, if_pos hp]

theorem clientsOk_step (load : ℕ) (hinv : Inv load s.driver) (e : SysEvent)
    (hs : sysStep cfg s e = some t) : ClientsOk t := by
  cases e with
  | tick ticks =>
    obtain rfl := Option.some.inj hs
    exact ⟨fun p c hp => ⟨(h.client p c hp).pid, (h.client p c hp).queued, (h.client p c hp).quiet,
      (h.client p c hp).sets, (h.client p c hp).counted, (h.client p c hp).reached⟩, h.nodup,
      h.running⟩
  | start task job =>
    obtain ⟨hnone, rfl⟩ := start_cases cfg s t task job hs
    -- a new pid is no running client, so it is not in the queue
    have hout : task.pid ∉ s.driver.asyncQueue := by
      intro hin
      obtain ⟨c, hc⟩ := h.running _ hin
      rw [hnone] at hc
      cases hc
    refine clientsOk_update s _ h task.pid _ rfl rfl (fun _ _ => Iff.rfl) h.nodup ?_ ?_
    · intro b hb
      obtain rfl := Option.some.inj hb
      exact ⟨rfl, ⟨fun hin => absurd hin hout, fun hr => by cases hr⟩, fun _ => ⟨rfl, rfl⟩,
        fun hw => (by cases hw), fun hr => (by cases hr), fun hr => by cases hr⟩
    · exact fun hin => absurd hin hout
  | act pid =>
    obtain ⟨c, hc, hcase⟩ := act_cases cfg s t pid hs
    obtain rfl := (h.client pid c hc).pid
    -- the handler is set, the file listens, the write, `pause()`, the end
    rcases hcase with ⟨hp, rfl⟩ | ⟨hp, rfl⟩ | ⟨hp, rfl⟩ | ⟨hp, rfl⟩ | ⟨hp, rfl⟩
    · exact clientsOk_moveTo s h s c _ hc ⟨rfl, rfl, rfl⟩ (by rw [hp]; rfl) (fun hw => by cases hw)
    · exact clientsOk_listen s h c hc hp
    · obtain ⟨hprocs, hfir, -⟩ := Sys.write_frame cfg s c
      refine clientsOk_moveTo s h (s.write cfg c) c _ hc ⟨hprocs, hfir, write_queue cfg s c⟩ ?_ ?_
      · rw [hp]
        cases c.job <;> rfl
      · intro hw
        cases hj : c.job with
        | set sec msg => exact ⟨sec, msg, rfl⟩
        | list third =>
          rw [hj] at hw
          cases hw
        | other third =>
          rw [hj] at hw
          cases hw
    · refine clientsOk_moveTo s h s c _ hc ⟨rfl, rfl, rfl⟩ (by rw [hp]; rfl) fun _ => ?_
      exact (h.client _ c hc).sets (by rw [hp]; rfl)
    · exact clientsOk_leave s h _
  | deliver pid =>
    obtain ⟨c, hc, hsig, rfl⟩ := deliver_cases cfg s t pid hs
    exact clientsOk_deliver s h pid c hc hsig
  | die pid =>
    obtain rfl := die_cases cfg s t pid hs
    exact clientsOk_leave s h pid
  | fire =>
    obtain ⟨hx, r, hr, rfl⟩ := fire_cases cfg s t hs
    obtain ⟨d', hexp, -, -, -, -, -, hq⟩ := expire_effect load s.driver hinv hx.1
    rw [hexp] at hr
    obtain rfl := Option.some.inj hr
    exact clientsOk_fire s h d' hq

end Clients

theorem sys_clients (cfg : Config) (load : ℕ) (guard : Sys → SysEvent → Prop) (s : Sys)
    (h : Reach (sysStep cfg) guard (.booted load) s) : ClientsOk s := by
  refine reach_invariant_with (J := fun s => Inv load s.driver)
    (fun t ht => (sys_inv cfg t load guard ht).1) ?_ h ?_
  · intro s e t hJ _ hi _ hs
    exact clientsOk_step cfg s t hi load hJ e hs
  · exact ⟨fun p c hc => (by cases hc), List.nodup_nil, fun p hp => (by cases hp)⟩

/-- In every run the queue holds exactly the clients that have registered, SIGIO ends no client,
and a client handles at most one signal for each firing since it registered, and at least one if
there was any, the pending one counted. -/
theorem signals_match_firings (cfg : Config) (load : ℕ) (s : Sys)
    (h : Reach (sysStep cfg) (fun _ _ => True) (.booted load) s) :
    (∀ p, p ∈ s.driver.asyncQueue ↔ ∃ c, s.procs p = some c ∧ c.phase.registered = true) ∧
    (∀ p t, sysStep cfg s (.deliver p) = some t → ∃ c, t.procs p = some c) ∧
    ∀ p c, s.procs p = some c → c.phase.registered = true →
      c.joined + (c.heard + c.sigio.toNat) ≤ s.firings ∧
      (c.joined < s.firings → 0 < c.heard + c.sigio.toNat) := by
  have hok := sys_clients cfg load _ s h
  refine ⟨fun p => ⟨fun hin => ?_, ?_⟩, fun p t hs => ?_, fun p c hc hr => ?_⟩
  · obtain ⟨c, hc⟩ := hok.running p hin
    exact ⟨c, hc, (hok.client p c hc).queued.mp hin⟩
  · rintro ⟨c, hc, hr⟩
    exact (hok.client p c hc).queued.mpr hr
  · obtain ⟨c, hc, hsig, rfl⟩ := deliver_cases cfg s t p hs
    unfold Sys.deliver
    split
    · -- without a handler there is no file in the queue
      rename_i hp
      have hquiet := ((hok.client p c hc).quiet (by rw [hp]; rfl)).1
      rw [hsig] at hquiet
      cases hquiet
    · exact ⟨_, Function.update_self p _ s.procs⟩
    · exact ⟨_, Function.update_self p _ s.procs⟩
  · exact ⟨(hok.client p c hc).counted hr, (hok.client p c hc).reached hr⟩

theorem signals_match_firings_run : ∃ s,
    Reach (sysStep Lab3.sampleConfig) (fun _ _ => True) (.booted 0) s ∧ s.firings = 1 ∧
      (∃ c, s.procs 52 = some c ∧ c.phase.registered = true) ∧ 52 ∈ s.driver.asyncQueue := by
  obtain ⟨s, hs, hp⟩ := exists_reach_of_free_run (sysStep Lab3.sampleConfig) (.booted 0)
    (twoSleepers ++ [.tick 200, .fire, .deliver 52])
    (fun s => s.firings = 1 ∧ (s.procs 52).any fun c => c.phase.registered) (by decide +kernel)
  obtain ⟨hf, hany⟩ := of_decide_eq_true hp
  obtain ⟨c, hc, hr⟩ := (Option.any_eq_true _ _).mp hany
  exact ⟨s, hs, hf, ⟨c, hc, hr⟩,
    ((signals_match_firings Lab3.sampleConfig 0 s hs).1 52).mpr ⟨c, hc, hr⟩⟩

section Pending

theorem pending_iff_alarm (d : Driver) : d.timer.timer.pending = true ↔ d.alarm.isSome = true := by
  unfold Driver.alarm
  split_ifs with hp <;> simp [hp]

theorem mytimerWrite_pending (cfg : Config) (load now : ℕ) (current : Task) (d : Driver)
    (buf : UserBuf) (h : Inv load d) :
    (d.mytimerWrite cfg now current buf).1.timer.timer.pending = true ↔
      d.timer.timer.pending = true ∨ (accepted buf ∧ commandOf buf = .set) := by
  have hboard := (write_board cfg load ⟨now, d⟩ h current buf).2
  rw [pending_iff_alarm, pending_iff_alarm]
  simp only [boardStep] at hboard
  split_ifs at hboard with hset
  · have halarm := congrArg Board.alarm (Option.some.inj hboard)
    change (d.mytimerWrite cfg now current buf).1.alarm = some _ at halarm
    simp [halarm, hset]
  · have halarm := congrArg Board.alarm (Option.some.inj hboard)
    change (d.mytimerWrite cfg now current buf).1.alarm = d.alarm at halarm
    rw [halarm]
    simp [hset]

theorem commandOf_set (sec msg : Arg) : commandOf (Lab3.Invocation.set sec msg).written = .set := by
  have hsecond : (pad 150 (Lab3.Invocation.set sec msg).written.bytes).getD 1 0 = 115 := by
    rw [Lab3.written_bytes]
    rfl
  unfold commandOf
  rw [hsecond]
  rfl

/-- After a client's write the timer is armed if it was before, or if the client set it. -/
theorem write_pending (cfg : Config) (load : ℕ) (s : Sys) (c : Proc) (h : Inv load s.driver) :
    (s.driver.timer.timer.pending = true → (s.write cfg c).driver.timer.timer.pending = true) ∧
      ∀ sec msg, c.job = .set sec msg →
        ((s.write cfg c).driver.timer.timer.pending = true ↔ s.driver.timer.timer.pending = true ∨
          accepted (Lab3.Invocation.set sec msg).written) := by
  have hwrite (buf : UserBuf) := mytimerWrite_pending cfg load s.now c.task s.driver buf h
  refine ⟨fun hp => ?_, fun sec msg hj => ?_⟩
  · unfold Sys.write
    split
    · rename_i buf _
      exact (hwrite buf).mpr (Or.inl hp)
    · exact hp
  · have hset := hwrite (Lab3.Invocation.set sec msg).written
    rw [commandOf_set] at hset
    simpa [Sys.write, hj, Job.written] using hset

end Pending

/-- Every client that has written its set command and has not been woken is covered: the timer
runs, or its signal is pending. -/
def WaitersCovered (s : Sys) : Prop :=
  ∀ p c, s.procs p = some c → c.phase.waiting = true →
    s.driver.timer.timer.pending = true ∨ c.sigio = true

/-- The condition on a step: a set command that the driver takes for too long needs a timer that
runs, and so does a client that handles SIGIO between its write and `pause()`. -/
def KeepsWakeups (s : Sys) : SysEvent → Prop
  | .act pid => ∀ c sec msg, s.procs pid = some c → c.phase = .listening → c.job = .set sec msg →
      accepted (Lab3.Invocation.set sec msg).written ∨ s.driver.timer.timer.pending = true ∨
        c.sigio = true
  | .deliver pid => ∀ c, s.procs pid = some c → c.phase = .written →
      s.driver.timer.timer.pending = true
  | _ => True

section Waiters
variable (cfg : Config) (load : ℕ) (s t : Sys) (hinv : Inv load s.driver) (hok : ClientsOk s)

theorem waiters_update (pid : ℕ) (c' : Option Proc)
    (ht : t.procs = Function.update s.procs pid c') (h : WaitersCovered s)
    (hd : s.driver.timer.timer.pending = true → t.driver.timer.timer.pending = true)
    (hself : ∀ b, c' = some b → b.phase.waiting = true →
      t.driver.timer.timer.pending = true ∨ b.sigio = true) : WaitersCovered t := by
  intro p c hp hw
  rcases Sys.procs_cases s t pid c' ht p c hp with ⟨-, hnew⟩ | ⟨-, hold⟩
  · exact hself c hnew hw
  · rcases h p c hold hw with hpend | hsig
    · exact Or.inl (hd hpend)
    · exact Or.inr hsig

theorem waiters_deliver (h : WaitersCovered s) (pid : ℕ)
    (hs : sysStep cfg s (.deliver pid) = some t) (hg : KeepsWakeups s (.deliver pid)) :
    WaitersCovered t := by
  obtain ⟨c, hc, -, rfl⟩ := deliver_cases cfg s t pid hs
  unfold Sys.deliver
  split
  · refine waiters_update s _ pid none rfl h id ?_
    intro b hb
    cases hb
  · refine waiters_update s _ pid _ rfl h id ?_
    intro b hb hw
    obtain rfl := Option.some.inj hb
    cases hw
  · refine waiters_update s _ pid _ rfl h id ?_
    intro b hb hw
    obtain rfl := Option.some.inj hb
    rename_i hpaused
    -- the signal is used up: between the write and `pause()` only the timer covers the client
    cases hp : c.phase with
    | written => exact Or.inl (hg c hc hp)
    | paused => exact absurd hp hpaused
    | _ =>
      change c.phase.waiting = true at hw
      rw [hp] at hw
      cases hw

include hinv hok

theorem waiters_act (h : WaitersCovered s) (pid : ℕ) (hs : sysStep cfg s (.act pid) = some t)
    (hg : KeepsWakeups s (.act pid)) : WaitersCovered t := by
  obtain ⟨c, hc, hcase⟩ := act_cases cfg s t pid hs
  obtain rfl := (hok.client pid c hc).pid
  rcases hcase with ⟨hp, rfl⟩ | ⟨hp, rfl⟩ | ⟨hp, rfl⟩ | ⟨hp, rfl⟩ | ⟨hp, rfl⟩
  · refine waiters_update s _ c.task.pid _ rfl h id ?_
    intro b hb hw
    obtain rfl := Option.some.inj hb
    cases hw
  · refine waiters_update s _ c.task.pid _ rfl h id ?_
    intro b hb hw
    obtain rfl := Option.some.inj hb
    cases hw
  -- only the write makes a client wait
  · obtain ⟨hkeep, hset⟩ := write_pending cfg load s c hinv
    have hprocs := (Sys.write_frame cfg s c).1
    refine waiters_update s _ c.task.pid (some { c with phase := c.job.next }) ?_ h hkeep ?_
    · rw [Sys.moveTo_eq, Sys.setProc_procs, hprocs]
    · intro b hb hw
      obtain rfl := Option.some.inj hb
      cases hj : c.job with
      | set sec msg =>
        rcases hg c sec msg hc hp hj with ha | hpend | hsig
        · exact Or.inl ((hset sec msg hj).mpr (Or.inr ha))
        · exact Or.inl (hkeep hpend)
        · exact Or.inr hsig
      | list third =>
        rw [hj] at hw
        cases hw
      | other third =>
        rw [hj] at hw
        cases hw
  · refine waiters_update s _ c.task.pid _ rfl h id ?_
    intro b hb _
    obtain rfl := Option.some.inj hb
    exact h c.task.pid c hc (by rw [hp]; rfl)
  · refine waiters_update s _ c.task.pid none rfl h id ?_
    intro b hb
    cases hb

/-- A firing reaches every waiting client. -/
theorem waiters_fire (hs : sysStep cfg s .fire = some t) (p : ℕ) (c : Proc)
    (hp : t.procs p = some c) (hw : c.phase.waiting = true) : c.sigio = true := by
  obtain ⟨hx, r, hr, rfl⟩ := fire_cases cfg s t hs
  obtain ⟨d', hexp, -⟩ := expire_effect load s.driver hinv hx.1
  rw [hexp] at hr
  obtain rfl := Option.some.inj hr
  obtain ⟨b, hb, rfl⟩ := Option.map_eq_some_iff.mp hp
  by_cases hin : p ∈ s.driver.asyncQueue
  · simp only [if_pos hin]
  · simp only [if_neg hin] at hw
    refine absurd ((hok.client p b hb).queued.mpr ?_) hin
    cases hph : b.phase <;> rw [hph] at hw <;> first | rfl | cases hw

theorem waiters_step (h : WaitersCovered s) (e : SysEvent) (hs : sysStep cfg s e = some t)
    (hg : KeepsWakeups s e) : WaitersCovered t := by
  cases e with
  | tick ticks =>
    obtain rfl := Option.some.inj hs
    exact h
  | start task job =>
    obtain ⟨-, rfl⟩ := start_cases cfg s t task job hs
    refine waiters_update s _ task.pid _ rfl h id ?_
    intro b hb hw
    obtain rfl := Option.some.inj hb
    cases hw
  | act pid => exact waiters_act cfg load s t hinv hok h pid hs hg
  | deliver pid => exact waiters_deliver cfg s t h pid hs hg
  | die pid =>
    obtain rfl := die_cases cfg s t pid hs
    refine waiters_update s _ pid none rfl h id ?_
    intro b hb
    cases hb
  | fire =>
    intro p c hp hw
    exact Or.inr (waiters_fire cfg load s t hinv hok hs p c hp hw)

/-- Among covered clients the condition on a step is exact. -/
theorem keepsWakeups_iff (h : WaitersCovered s) (e : SysEvent) (hs : sysStep cfg s e = some t) :
    WaitersCovered t ↔ KeepsWakeups s e := by
  refine ⟨fun ht => ?_, waiters_step cfg load s t hinv hok h e hs⟩
  cases e with
  | act pid =>
    intro c sec msg hc hp hj
    obtain ⟨b, hb, hcase⟩ := act_cases cfg s t pid hs
    obtain rfl := Option.some.inj (hc.symm.trans hb)
    obtain rfl := (hok.client pid c hc).pid
    simp only [hp, reduceCtorEq, false_and, false_or, or_false, true_and] at hcase
    subst hcase
    -- the writer itself waits now
    have hself := ht c.task.pid { c with phase := c.job.next } (Function.update_self _ _ _)
      (by rw [hj]; rfl)
    rcases hself with hpend | hsig
    · rcases ((write_pending cfg load s c hinv).2 sec msg hj).mp hpend with hold | ha
      · exact Or.inr (Or.inl hold)
      · exact Or.inl ha
    · exact Or.inr (Or.inr hsig)
  | deliver pid =>
    intro c hc hp
    obtain ⟨b, hb, -, rfl⟩ := deliver_cases cfg s t pid hs
    obtain rfl := Option.some.inj (hc.symm.trans hb)
    have hself := ht pid { c with sigio := false, heard := c.heard + 1 }
      (by simp [Sys.deliver, hp]) (by rw [hp]; rfl)
    simpa [Sys.deliver, hp] using hself
  | tick ticks => trivial
  | start task job => trivial
  | die pid => trivial
  | fire => trivial

end Waiters

/-- A run keeps every waiting client covered at each of its states exactly when each of its steps
meets the condition. -/
theorem waiters_covered_iff (cfg : Config) (load : ℕ) (es : List SysEvent) (t : Sys)
    (h : run (sysStep cfg) (fun _ _ => true) (.booted load) es = some t) :
    Always (sysStep cfg) WaitersCovered (.booted load) es ↔
      Meets (sysStep cfg) KeepsWakeups (.booted load) es := by
  refine always_iff_meets (I := fun s => Reach (sysStep cfg) (fun _ _ => True) (.booted load) s)
    ?_ ?_ h (reach_refl _) ?_
  · intro s e u hs _ hu
    exact reach_tail e hs trivial hu
  · intro s e u hs hp _ hu
    exact keepsWakeups_iff cfg load s u (sys_inv cfg s load _ hs).1 (sys_clients cfg load _ s hs)
      hp e hu
  · intro p c hc
    cases hc

theorem waiters_covered_iff_run : ∃ t,
    run (sysStep Lab3.sampleConfig) (fun _ _ => true) (.booted 0) twoSleepers = some t ∧
      (Always (sysStep Lab3.sampleConfig) WaitersCovered (.booted 0) twoSleepers ↔
        Meets (sysStep Lab3.sampleConfig) KeepsWakeups (.booted 0) twoSleepers) := by
  have hsome : (run (sysStep Lab3.sampleConfig) (fun _ _ => true) (.booted 0) twoSleepers).isSome =
    true := by decide +kernel
  obtain ⟨t, ht⟩ := Option.isSome_iff_exists.mp hsome
  exact ⟨t, ht, waiters_covered_iff Lab3.sampleConfig 0 twoSleepers t ht⟩

theorem waiters_reach (cfg : Config) (load : ℕ) (s : Sys)
    (h : Reach (sysStep cfg) KeepsWakeups (.booted load) s) : WaitersCovered s := by
  refine reach_invariant_with (J := fun s => Inv load s.driver ∧ ClientsOk s)
    (fun t ht => ⟨(sys_inv cfg t load _ ht).1, sys_clients cfg load _ t ht⟩) ?_ h ?_
  · intro s e t hJ _ hi hg hs
    exact waiters_step cfg load s t hJ.1 hJ.2 hi e hs hg
  · intro p c hc
    cases hc

section Waking
variable (cfg : Config) (s : Sys)

/-- An armed timer can fire once it is due, and then every sleeper is signalled. -/
theorem fire_when_due (load : ℕ) (hinv : Inv load s.driver) (hok : ClientsOk s)
    (hp : s.driver.timer.timer.pending = true) :
    ∃ t, run (sysStep cfg) (fun _ _ => true) s
        [.tick (s.driver.timer.timer.due - s.now), .fire] = some t ∧
      ∀ p c, s.procs p = some c → c.phase = .paused → t.procs p = some { c with sigio := true } := by
  obtain ⟨d', hexp, -⟩ := expire_effect load s.driver hinv hp
  -- the clock goes to the deadline, and then the timer fires
  let later : Sys := { s with now := s.now + (s.driver.timer.timer.due - s.now) }
  have hx : later.driver.timer.timer.Expired later.now := by
    refine ⟨hp, ?_⟩
    change s.driver.timer.timer.due ≤ s.now + (s.driver.timer.timer.due - s.now)
    omega
  have hexp' : later.driver.expire = some (d', s.driver.asyncQueue) := hexp
  let fired : Sys := { later with driver := d', firings := later.firings + 1 }.signal
    s.driver.asyncQueue
  have hfire : sysStep cfg later .fire = some fired := by
    simp only [sysStep, if_pos hx, hexp', Option.map_some]
    rfl
  refine ⟨fired, ?_, fun p c hc hph => ?_⟩
  · change (sysStep cfg later .fire).bind _ = _
    rw [hfire]
    rfl
  · have hin : p ∈ s.driver.asyncQueue := (hok.client p c hc).queued.mpr (by rw [hph]; rfl)
    simp only [fired, Sys.signal, later, hc, Option.map_some, if_pos hin]

/-- A signalled sleeper leaves `pause()` by handling its signal. -/
theorem sleeper_returns (p : ℕ) (c : Proc) (hc : s.procs p = some c) (hp : c.phase = .paused)
    (hsig : c.sigio = true) :
    ∃ t b, run (sysStep cfg) (fun _ _ => true) s [.deliver p] = some t ∧
      t.procs p = some b ∧ b.phase = .finishing := by
  refine ⟨s.deliver p c, { c with sigio := false, heard := c.heard + 1, phase := .finishing }, ?_,
    ?_, rfl⟩
  · simp [run, sysStep, hc, hsig]
  · simp only [Sys.deliver, hp]
    exact Function.update_self p _ s.procs

end Waking

/-- Where the condition was met, one firing at most 99999 seconds away reaches every sleeper, or
all of them have been signalled already; the rest is each one's own handler. -/
theorem one_firing_wakes_all (cfg : Config) (load : ℕ) (s : Sys)
    (h : Reach (sysStep cfg) KeepsWakeups (.booted load) s) :
    ∃ n ≤ longest cfg, ∃ es, (es = [] ∨ es = [.tick n, .fire]) ∧
      ∀ p c, s.procs p = some c → c.phase = .paused → ∃ t b,
        run (sysStep cfg) (fun _ _ => true) s (es ++ [.deliver p]) = some t ∧
        t.procs p = some b ∧ b.phase = .finishing := by
  have hcovered := waiters_reach cfg load s h
  have hok := sys_clients cfg load _ s h
  obtain ⟨hinv, hbound⟩ := sys_inv cfg s load _ h
  by_cases hpend : s.driver.timer.timer.pending = true
  · have hdue : s.driver.timer.timer.due ≤ s.now + longest cfg :=
      hbound _ (alarm_of_pending s.driver hpend)
    obtain ⟨u, hu, hsignalled⟩ := fire_when_due cfg s load hinv hok hpend
    refine ⟨s.driver.timer.timer.due - s.now, by omega, _, Or.inr rfl, fun p c hc hp => ?_⟩
    obtain ⟨t, b, ht, hb⟩ := sleeper_returns cfg u p _ (hsignalled p c hc hp) hp rfl
    exact ⟨t, b, by rw [run_append, hu]; exact ht, hb⟩
  · refine ⟨0, Nat.zero_le _, [], Or.inl rfl, fun p c hc hp => ?_⟩
    exact sleeper_returns cfg s p c hc hp
      ((hcovered p c hc (by rw [hp]; rfl)).resolve_left hpend)

/-- Decides the condition where the driver takes every set command. -/
def keepsWakeupsCheck (s : Sys) : SysEvent → Bool
  | .act pid => (s.procs pid).all fun c =>
    match c.job with
    | .set sec msg => accepted (Lab3.Invocation.set sec msg).written
    | _ => true
  | .deliver pid => (s.procs pid).all fun c => c.phase ≠ .written
  | _ => true

theorem keepsWakeups_of_check (s : Sys) (e : SysEvent) (h : keepsWakeupsCheck s e = true) :
    KeepsWakeups s e := by
  cases e with
  | act pid =>
    intro c sec msg hc _ hj
    simp only [keepsWakeupsCheck, hc, Option.all_some, hj, decide_eq_true_eq] at h
    exact Or.inl h
  | deliver pid =>
    intro c hc hp
    simp [keepsWakeupsCheck, hc, hp] at h
  | tick ticks => trivial
  | start task job => trivial
  | die pid => trivial
  | fire => trivial

/-- The refused client is woken by the timer of the other. -/
theorem one_firing_wakes_all_run : ∃ s,
    Reach (sysStep Lab3.sampleConfig) KeepsWakeups (.booted 0) s ∧
      (s.procs 52).any (fun c => c.phase = .paused) = true ∧ ∃ es t b,
        run (sysStep Lab3.sampleConfig) (fun _ _ => true) s (es ++ [.deliver 52]) = some t ∧
        t.procs 52 = some b ∧ b.phase = .finishing := by
  obtain ⟨s, hs, hp⟩ := exists_reach_of_run (sysStep Lab3.sampleConfig) (.booted 0)
    keepsWakeups_of_check twoSleepers (fun s => (s.procs 52).any fun c => c.phase = .paused)
    (by decide +kernel)
  obtain ⟨c, hc, hpaused⟩ := (Option.any_eq_true _ _).mp hp
  obtain ⟨n, -, es, -, hall⟩ := one_firing_wakes_all Lab3.sampleConfig 0 s hs
  obtain ⟨t, b, ht, hb⟩ := hall 52 c hc (of_decide_eq_true hpaused)
  exact ⟨s, hs, hp, es, t, b, ht, hb⟩

end DevKota.Devin
