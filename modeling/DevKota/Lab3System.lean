import DevKota.Lab3Remove
import DevKota.Lab3Owners

/-! Any number of `ktimer` processes over one lab3 driver. Each system call of a client is one
atomic step; client steps, timer firings and signal deliveries interleave freely. -/
namespace DevKota.Lab3
open CString Kernel Runs
attribute [local irreducible] Driver.mytimerWrite Driver.mytimerRead Driver.mytimerProcShow
  Driver.insertsAt

/-- The command line of a client. -/
inductive Job
  | list
  | invoke (v : Invocation)

/-- Where a client stands between two of its steps. -/
inductive Phase
  | started -- SIGIO still has its default action
  | ready
  | listed (bytes : List Byte)
  | reported (bytes : List Byte)
  | decided (o : SetOutcome)
  | updating -- the write is made, the message not yet printed
  | written -- the write is made, `pause()` not yet called
  | paused
  | killing (pids : List ℤ)
  | finishing
  deriving DecidableEq

/-- The client has made the write of a new timer and has not been woken. -/
def Phase.waiting : Phase → Bool
  | .written | .paused => true
  | _ => false

/-- The client has made its last write. -/
def Phase.late (p : Phase) : Bool := p.waiting || p = .finishing

theorem waiting_of_early (p : Phase) (h : p.late = false) : p.waiting = false :=
  (Bool.or_eq_false_iff.mp h).1

theorem waiting_cases (p : Phase) (h : p.waiting = true) : p = .written ∨ p = .paused := by
  cases p with
  | written => exact Or.inl rfl
  | paused => exact Or.inr rfl
  | _ => cases h

/-- A running client. The number `uid` is never used twice, unlike the pid. -/
structure Proc where
  uid : ℕ
  task : Task
  pgrp : ℕ
  job : Job
  phase : Phase
  sigio : Bool

/-- What a client does next: local work, or one system call. -/
inductive Action
  | goto (next : Phase)
  | readDevice
  | readProc
  | write (v : Invocation) (next : Phase)
  | printUpdated (next : Phase)
  | kill (pid : ℤ) (next : Phase)
  | exit

/-- What undefined memory holds when a client looks at it. -/
structure Junk where
  stack : Buffer 150
  report : Buffer 1000
  pids : List ℤ

/-- The `-l` branch of `main`. -/
def listSteps : Phase → Option Action
  | .ready => some .readDevice
  | .listed _ => some (.goto .finishing)
  | _ => none

/-- The `-m` branch, which looks at the first character only. -/
def countSteps (n third : Arg) : Phase → Option Action
  | .ready =>
    -- '2' and '1'
    if n.text.head? = some 50 ∨ n.text.head? = some 49 then
      some (.write (.count n third) .finishing)
    else some (.goto .finishing)
  | _ => none

/-- The `-r` branch. The pids come from undefined memory where `token + 13` leaves the text. -/
def removeSteps (second third : Arg) (junk : Junk) : Phase → Option Action
  | .ready => some .readProc
  | .reported bytes => some (.goto (.killing ((removeBranch bytes).getD junk.pids)))
  | .killing (pid :: pids) => some (.kill pid (.killing pids))
  | .killing [] => some (.write (.remove second third) .finishing)
  | _ => none

/-- The `-s` branch. A token without a space ends the process with a segmentation fault. -/
def setSteps (sec msg : Arg) (junk : Junk) : Phase → Option Action
  | .ready => some .readDevice
  | .listed bytes =>
    match setBranch junk.stack bytes msg.text with
    | some o => some (.goto (.decided o))
    | none => some .exit
  -- the driver may decide otherwise by the time the write arrives
  | .decided .updated => some (.write (.set sec msg) .updating)
  | .updating => some (.printUpdated .finishing)
  | .decided .full => some (.goto .finishing)
  | .decided .created => some (.write (.set sec msg) .written)
  -- the result of the write is not looked at
  | .written => some (.goto .paused)
  | _ => none

/-- `main`: the handler is installed first, and every branch ends in a return. -/
def Proc.nextAction (c : Proc) (junk : Junk) : Option Action :=
  match c.phase with
  | .started => some (.goto .ready)
  | .finishing => some .exit
  | phase =>
    match c.job with
    | .list => listSteps phase
    | .invoke (.count n third) => countSteps n third phase
    | .invoke (.remove second third) => removeSteps second third junk phase
    | .invoke (.set sec msg) => setSteps sec msg junk phase

/-- The driver, the clients by pid, and records of the past: who filled each slot last, who
has ever filled one, and who has printed `The timer ... was updated!`. -/
structure Sys where
  now : ℕ
  driver : Driver
  procs : ℕ → Option Proc
  nextUid : ℕ
  creator : Fin maxTimers → Option ℕ
  creators : List ℕ
  printed : List ℕ

namespace Sys

def booted (now : ℕ) : Sys := ⟨now, Driver.mytimerInit now, fun _ => none, 0, fun _ => none, [], []⟩

def setProc (s : Sys) (pid : ℕ) (c : Option Proc) : Sys :=
  { s with procs := Function.update s.procs pid c }

def moveTo (s : Sys) (c : Proc) (next : Phase) : Sys :=
  s.setProc c.task.pid (some { c with phase := next })

def write (cfg : Config) (s : Sys) (c : Proc) (buf : UserBuf) : Sys :=
  { s with
    driver := (s.driver.mytimerWrite cfg s.now c.task buf).1
    creator := match s.driver.insertsAt buf with
      | some k => Function.update s.creator k (some c.uid)
      | none => s.creator
    creators := match s.driver.insertsAt buf with
      | some _ => c.uid :: s.creators
      | none => s.creators }

/-- Whether `kill(pid, SIGKILL)` reaches a process: one pid, the sender's group, everybody
else, or the group `-pid`. -/
def killHits (sender : Proc) (pid : ℤ) (c : Proc) : Bool :=
  if 0 < pid then (c.task.pid : ℤ) = pid
  else if pid = 0 then c.pgrp = sender.pgrp
  else if pid = -1 then c.uid ≠ sender.uid
  else (c.pgrp : ℤ) = -pid

def kill (s : Sys) (sender : Proc) (pid : ℤ) : Sys :=
  { s with procs := fun p => (s.procs p).filter fun c => !killHits sender pid c }

/-- `send_sig(SIGIO, task, 1)` to the task with that pid, if there is one. -/
def signal (s : Sys) (pid : ℕ) : Sys :=
  s.setProc pid ((s.procs pid).map fun c => { c with sigio := true })

def perform (cfg : Config) (s : Sys) (c : Proc) (junk : Junk) : Action → Sys
  | .goto next => s.moveTo c next
  | .readDevice =>
    { s with driver := (s.driver.mytimerRead cfg s.now 149 0).1 }.moveTo c
      (.listed (clientRead cfg s.now s.driver))
  | .readProc =>
    s.moveTo c (.reported ((s.driver.mytimerProcShow cfg s.now junk.report).take 149))
  | .write v next => (s.write cfg c v.written).moveTo c next
  | .printUpdated next => { s with printed := c.uid :: s.printed }.moveTo c next
  | .kill pid next => (s.moveTo c next).kill c pid
  | .exit => s.setProc c.task.pid none

/-- The handler runs, or SIGIO ends a process that has not installed it. `pause()` returns
after the handler. -/
def deliver (s : Sys) (pid : ℕ) (c : Proc) : Sys :=
  match c.phase with
  | .started => s.setProc pid none
  -- only a client already in `pause()` is woken; the signal is used up everywhere else too
  | .paused => s.setProc pid (some { c with phase := .finishing, sigio := false })
  | _ => s.setProc pid (some { c with sigio := false })

@[simp] theorem setProc_procs (s : Sys) (pid : ℕ) (c : Option Proc) :
    (s.setProc pid c).procs = Function.update s.procs pid c := rfl
@[simp] theorem setProc_driver (s : Sys) (pid : ℕ) (c : Option Proc) :
    (s.setProc pid c).driver = s.driver := rfl

theorem write_creator (cfg : Config) (s : Sys) (c : Proc) (buf : UserBuf) (i : Fin maxTimers)
    (hi : s.driver.insertsAt buf = some i) :
    (s.write cfg c buf).creator = Function.update s.creator i (some c.uid) ∧
      (s.write cfg c buf).creators = c.uid :: s.creators := by
  simp only [write, hi, and_self]

theorem write_creator_none (cfg : Config) (s : Sys) (c : Proc) (buf : UserBuf)
    (hi : s.driver.insertsAt buf = none) :
    (s.write cfg c buf).creator = s.creator ∧ (s.write cfg c buf).creators = s.creators := by
  simp only [write, hi, and_self]

theorem moveTo_eq (s : Sys) (c : Proc) (next : Phase) :
    s.moveTo c next = s.setProc c.task.pid (some { c with phase := next }) := rfl

/-- Where a process comes from after a change at one pid. -/
theorem procs_cases (s t : Sys) (pid : ℕ) (c' : Option Proc)
    (ht : t.procs = Function.update s.procs pid c') (p : ℕ) (b : Proc) (hb : t.procs p = some b) :
    p = pid ∧ c' = some b ∨ p ≠ pid ∧ s.procs p = some b := by
  rw [ht] at hb
  by_cases hp : p = pid
  · subst hp
    rw [Function.update_self] at hb
    exact Or.inl ⟨rfl, hb⟩
  · rw [Function.update_of_ne hp] at hb
    exact Or.inr ⟨hp, hb⟩

theorem kill_procs (s : Sys) (sender c : Proc) (pid : ℤ) (p : ℕ)
    (h : (s.kill sender pid).procs p = some c) : s.procs p = some c :=
  (Option.filter_eq_some_iff.mp h).1

end Sys

inductive SysEvent
  | tick (ticks : ℕ)
  | start (task : Task) (pgrp : ℕ) (job : Job)
  | act (pid : ℕ) (junk : Junk)
  | deliver (pid : ℕ)
  | fire (k : Fin maxTimers)

/-- One atomic step of the whole system. -/
def sysStep (cfg : Config) (s : Sys) : SysEvent → Option Sys
  | .tick ticks => some { s with now := s.now + ticks }
  | .start task pgrp job =>
    -- a pid is given out again once it is free
    if s.procs task.pid = none then
      some { s.setProc task.pid (some ⟨s.nextUid, task, pgrp, job, .started, false⟩) with
        nextUid := s.nextUid + 1 }
    else none
  | .act pid junk =>
    (s.procs pid).bind fun c => (c.nextAction junk).map (s.perform cfg c junk)
  | .deliver pid =>
    (s.procs pid).bind fun c => if c.sigio then some (s.deliver pid c) else none
  | .fire k =>
    if (s.driver.timers k).timer.Expired s.now then
      (s.driver.expire k).map fun r => { s with driver := r.1 }.signal r.2
    else none

section Client

/-- What is known of a client from its next action. -/
def Action.Fits (c : Proc) : Action → Prop
  | .goto next => next = .paused ∧ c.phase = .written ∨
      next.waiting = false ∧ c.phase.late = false
  | .readDevice | .readProc => c.phase = .ready
  | .write v next => c.job = .invoke v ∧
      match v with
      | .set _ _ => c.phase = .decided .created ∧ next = .written ∨
          c.phase = .decided .updated ∧ next = .updating
      | .count _ _ => c.phase = .ready ∧ next = .finishing
      | .remove _ _ => c.phase = .killing [] ∧ next = .finishing
  | .printUpdated next => c.phase = .updating ∧ next = .finishing
  | .kill _ next => (∃ pids, next = .killing pids) ∧
      ∃ second third, c.job = .invoke (.remove second third)
  | .exit => c.phase.waiting = false

variable (c : Proc) (junk : Junk) (a : Action)

theorem goto_fits (phase next : Phase) (hp : c.phase = phase) (hw : next.waiting = false)
    (hc : phase.late = false) : (Action.goto next).Fits c := by
  subst hp
  exact Or.inr ⟨hw, hc⟩

theorem listSteps_fits (h : listSteps c.phase = some a) : a.Fits c := by
  unfold listSteps at h
  split at h
  · rename_i hp
    obtain rfl := Option.some.inj h
    exact hp
  · rename_i hp
    obtain rfl := Option.some.inj h
    exact goto_fits c _ _ hp rfl rfl
  · cases h

theorem countSteps_fits (n third : Arg) (hj : c.job = .invoke (.count n third))
    (h : countSteps n third c.phase = some a) : a.Fits c := by
  unfold countSteps at h
  split at h
  · rename_i hp
    split_ifs at h
    · obtain rfl := Option.some.inj h
      exact ⟨hj, hp, rfl⟩
    · obtain rfl := Option.some.inj h
      exact goto_fits c _ _ hp rfl rfl
  · cases h

theorem removeSteps_fits (second third : Arg) (hj : c.job = .invoke (.remove second third))
    (h : removeSteps second third junk c.phase = some a) : a.Fits c := by
  unfold removeSteps at h
  split at h
  · rename_i hp
    obtain rfl := Option.some.inj h
    exact hp
  · rename_i hp
    obtain rfl := Option.some.inj h
    exact goto_fits c _ _ hp rfl rfl
  · obtain rfl := Option.some.inj h
    exact ⟨⟨_, rfl⟩, second, third, hj⟩
  · rename_i hp
    obtain rfl := Option.some.inj h
    exact ⟨hj, hp, rfl⟩
  · cases h

theorem setSteps_fits (sec msg : Arg) (hj : c.job = .invoke (.set sec msg))
    (h : setSteps sec msg junk c.phase = some a) : a.Fits c := by
  unfold setSteps at h
  -- the cases stand in the order of the branches
  split at h
  · rename_i hp
    obtain rfl := Option.some.inj h
    exact hp
  · rename_i hp
    split at h
    · obtain rfl := Option.some.inj h
      exact goto_fits c _ _ hp rfl rfl
    · obtain rfl := Option.some.inj h
      change c.phase.waiting = false
      rw [hp]
      rfl
  · rename_i hp
    obtain rfl := Option.some.inj h
    exact ⟨hj, Or.inr ⟨hp, rfl⟩⟩
  · rename_i hp
    obtain rfl := Option.some.inj h
    exact ⟨hp, rfl⟩
  · rename_i hp
    obtain rfl := Option.some.inj h
    exact goto_fits c _ _ hp rfl rfl
  · rename_i hp
    obtain rfl := Option.some.inj h
    exact ⟨hj, Or.inl ⟨hp, rfl⟩⟩
  · rename_i hp
    obtain rfl := Option.some.inj h
    exact Or.inl ⟨rfl, hp⟩
  · cases h

theorem nextAction_fits (h : c.nextAction junk = some a) : a.Fits c := by
  unfold Proc.nextAction at h
  split at h
  · rename_i hp
    obtain rfl := Option.some.inj h
    exact goto_fits c _ _ hp rfl rfl
  · rename_i hp
    obtain rfl := Option.some.inj h
    change c.phase.waiting = false
    rw [hp]
    rfl
  · split at h
    · exact listSteps_fits c a h
    · rename_i hj
      exact countSteps_fits c a _ _ hj h
    · rename_i hj
      exact removeSteps_fits c junk a _ _ hj h
    · rename_i hj
      exact setSteps_fits c junk a _ _ hj h

end Client

section Runs
variable (cfg : Config)

theorem act_cases (s t : Sys) (pid : ℕ) (junk : Junk) (h : sysStep cfg s (.act pid junk) = some t) :
    ∃ c a, s.procs pid = some c ∧ a.Fits c ∧ t = s.perform cfg c junk a := by
  obtain ⟨c, hc, ha⟩ := Option.bind_eq_some_iff.mp h
  obtain ⟨a, hnext, hperform⟩ := Option.map_eq_some_iff.mp ha
  exact ⟨c, a, hc, nextAction_fits c junk a hnext, hperform.symm⟩

theorem fire_cases (s t : Sys) (k : Fin maxTimers) (h : sysStep cfg s (.fire k) = some t) :
    (s.driver.timers k).timer.Expired s.now ∧
      ∃ r, s.driver.expire k = some r ∧ t = { s with driver := r.1 }.signal r.2 := by
  simp only [sysStep] at h
  split_ifs at h with hx
  obtain ⟨r, hr, ht⟩ := Option.map_eq_some_iff.mp h
  exact ⟨hx, r, hr, ht.symm⟩

theorem deliver_cases (s t : Sys) (pid : ℕ) (h : sysStep cfg s (.deliver pid) = some t) :
    ∃ c, s.procs pid = some c ∧ c.sigio = true ∧ t = s.deliver pid c := by
  obtain ⟨c, hc, ht⟩ := Option.bind_eq_some_iff.mp h
  split_ifs at ht with hs
  exact ⟨c, hc, hs, (Option.some.inj ht).symm⟩

theorem start_cases (s t : Sys) (task : Task) (pgrp : ℕ) (job : Job)
    (h : sysStep cfg s (.start task pgrp job) = some t) :
    s.procs task.pid = none ∧
      t = { s.setProc task.pid (some ⟨s.nextUid, task, pgrp, job, .started, false⟩) with
        nextUid := s.nextUid + 1 } := by
  simp only [sysStep] at h
  split_ifs at h with hn
  exact ⟨hn, (Option.some.inj h).symm⟩

/-- The only step of a client that decided to create is its write. -/
theorem created_step (s t : Sys) (pid : ℕ) (junk : Junk) (c : Proc) (v : Invocation)
    (hc : s.procs pid = some c) (hj : c.job = .invoke v) (hp : c.phase = .decided .created)
    (hs : sysStep cfg s (.act pid junk) = some t) :
    t = (s.write cfg c v.written).moveTo c .written := by
  simp only [sysStep, hc, Option.bind_some, Proc.nextAction, hp, hj] at hs
  cases v with
  | set sec msg => exact (Option.some.inj hs).symm
  | count n third => cases hs
  | remove second third => cases hs

/-- The driver's part of the system. -/
def Sys.driverState (s : Sys) : State := ⟨s.now, s.driver⟩

/-- What the driver sees of a run of the system is a run of the driver. -/
theorem driver_reach (load : ℕ) (guard : Sys → SysEvent → Prop) (s : Sys)
    (h : Reach (sysStep cfg) guard (.booted load) s) :
    Reach (step cfg) (fun _ _ => True) (loaded load) s.driverState := by
  have hone (s t : Sys) (e : Event) (he : step cfg s.driverState e = some t.driverState) :
      Reach (step cfg) (fun _ _ => True) s.driverState t.driverState :=
    reach_tail e (reach_refl _) trivial he
  refine reach_simulates (I := fun _ => True) Sys.driverState (fun _ _ _ _ _ _ => trivial) ?_ h trivial
  intro s e t _ _ hs
  -- local steps of a client and signals are invisible to the driver
  cases e with
  | tick ticks =>
    obtain rfl := Option.some.inj hs
    exact hone _ _ (.tick ticks) rfl
  | start task pgrp job =>
    obtain ⟨-, rfl⟩ := start_cases cfg s t task pgrp job hs
    exact reach_refl _
  | act pid junk =>
    obtain ⟨c, a, -, -, rfl⟩ := act_cases cfg s t pid junk hs
    cases a with
    | goto next => exact reach_refl _
    | readDevice => exact hone _ _ (.read 149 0) rfl
    | readProc => exact reach_refl _
    | write v next => exact hone _ _ (.write c.task v.written) rfl
    | printUpdated next => exact reach_refl _
    | kill z next => exact reach_refl _
    | exit => exact reach_refl _
  | deliver pid =>
    obtain ⟨c, -, -, rfl⟩ := deliver_cases cfg s t pid hs
    unfold Sys.deliver
    split <;> exact reach_refl _
  | fire k =>
    obtain ⟨hx, r, hr, rfl⟩ := fire_cases cfg s t k hs
    apply hone _ _ (.fire k)
    simp only [step, Sys.driverState, if_pos hx, hr]
    rfl

theorem sys_armed (load : ℕ) (guard : Sys → SysEvent → Prop) (s : Sys)
    (h : Reach (sysStep cfg) guard (.booted load) s) : ActiveArmed s.driver :=
  activeArmed_reach cfg load _ (driver_reach cfg load guard s h)

/-- A client is found under its own pid, and only `-s` comes to wait. -/
structure ClientOk (p : ℕ) (c : Proc) : Prop where
  pid : c.task.pid = p
  sets : c.phase.waiting = true → ∃ sec msg, c.job = .invoke (.set sec msg)

def ClientsOk (s : Sys) : Prop := ∀ p c, s.procs p = some c → ClientOk p c

theorem clientsOk_update (s t : Sys) (h : ClientsOk s) (pid : ℕ) (c' : Option Proc)
    (ht : t.procs = Function.update s.procs pid c') (hc : ∀ c, c' = some c → ClientOk pid c) :
    ClientsOk t := by
  intro p c hp
  rcases Sys.procs_cases s t pid c' ht p c hp with ⟨rfl, hnew⟩ | ⟨-, hold⟩
  · exact hc c hnew
  · exact h p c hold

theorem clientsOk_moveTo (s s' : Sys) (h : ClientsOk s) (hs' : s'.procs = s.procs) (c : Proc)
    (next : Phase) (hn : next.waiting = true → ∃ sec msg, c.job = .invoke (.set sec msg)) :
    ClientsOk (s'.moveTo c next) := by
  apply clientsOk_update s _ h c.task.pid (some { c with phase := next })
  · rw [Sys.moveTo_eq, Sys.setProc_procs, hs']
  · intro c' hc'
    rw [← Option.some.inj hc']
    exact ⟨rfl, hn⟩

theorem clientsOk_perform (s : Sys) (h : ClientsOk s) (pid : ℕ) (c : Proc) (junk : Junk) (a : Action)
    (hc : s.procs pid = some c) (hfits : a.Fits c) : ClientsOk (s.perform cfg c junk a) := by
  -- for all actions but those of a waiting client
  have hidle (s' : Sys) (hs' : s'.procs = s.procs) (next : Phase) (hn : next.waiting = false) :
      ClientsOk (s'.moveTo c next) := by
    apply clientsOk_moveTo s s' h hs' c next
    intro hw
    rw [hn] at hw
    cases hw
  cases a with
  | goto next =>
    rcases hfits with ⟨rfl, hp⟩ | ⟨hn, -⟩
    · apply clientsOk_moveTo s s h rfl c .paused
      intro _
      exact (h pid c hc).sets (by rw [hp]; rfl)
    · exact hidle s rfl next hn
  | readDevice => exact hidle _ rfl _ rfl
  | readProc => exact hidle s rfl _ rfl
  | write v next =>
    obtain ⟨hj, hv⟩ := hfits
    cases v with
    | set sec msg => exact clientsOk_moveTo s _ h rfl c next fun _ => ⟨sec, msg, hj⟩
    | count n third => exact hidle _ rfl next (by rw [hv.2]; rfl)
    | remove second third => exact hidle _ rfl next (by rw [hv.2]; rfl)
  | printUpdated next => exact hidle _ rfl next (by rw [hfits.2]; rfl)
  | kill z next =>
    obtain ⟨⟨pids, rfl⟩, -⟩ := hfits
    intro p b hb
    exact hidle s rfl _ rfl p b (Sys.kill_procs _ c b z p hb)
  | exit =>
    apply clientsOk_update s _ h c.task.pid none rfl
    intro b hb
    cases hb

theorem clientsOk_step (s t : Sys) (e : SysEvent) (h : ClientsOk s) (hs : sysStep cfg s e = some t) :
    ClientsOk t := by
  cases e with
  | tick ticks =>
    obtain rfl := Option.some.inj hs
    exact h
  | start task pgrp job =>
    obtain ⟨-, rfl⟩ := start_cases cfg s t task pgrp job hs
    apply clientsOk_update s _ h task.pid _ rfl
    intro c hc
    rw [← Option.some.inj hc]
    exact ⟨rfl, fun hw => by cases hw⟩
  | act pid junk =>
    obtain ⟨c, a, hc, hfits, rfl⟩ := act_cases cfg s t pid junk hs
    exact clientsOk_perform cfg s h pid c junk a hc hfits
  | deliver pid =>
    obtain ⟨c, hc, -, rfl⟩ := deliver_cases cfg s t pid hs
    have hok := h pid c hc
    unfold Sys.deliver
    split
    · apply clientsOk_update s _ h pid none rfl
      intro b hb
      cases hb
    · apply clientsOk_update s _ h pid _ rfl
      intro b hb
      rw [← Option.some.inj hb]
      exact ⟨hok.pid, fun hw => by cases hw⟩
    · apply clientsOk_update s _ h pid _ rfl
      intro b hb
      rw [← Option.some.inj hb]
      exact ⟨hok.pid, hok.sets⟩
  | fire k =>
    obtain ⟨-, r, -, rfl⟩ := fire_cases cfg s t k hs
    apply clientsOk_update s _ h r.2 _ rfl
    intro b hb
    obtain ⟨c, hc, rfl⟩ := Option.map_eq_some_iff.mp hb
    exact ⟨(h r.2 c hc).pid, (h r.2 c hc).sets⟩

theorem sys_clients (load : ℕ) (guard : Sys → SysEvent → Prop) (s : Sys)
    (h : Reach (sysStep cfg) guard (.booted load) s) : ClientsOk s := by
  apply reach_invariant (fun s e t hi _ hs => clientsOk_step cfg s t e hi hs) h
  intro p c hc
  cases hc

end Runs

/-- Clients to execute the system with. -/
def sampleStart (pid : ℕ) (hp : 0 < pid ∧ pid < 2^31) (v : Invocation) : SysEvent :=
  .start (sampleTask pid hp) pid (.invoke v)

def sampleArg (text : String) (h : 0 ∉ ascii text) : Arg := ⟨ascii text, h⟩

def sampleAct (pid : ℕ) : SysEvent := .act pid ⟨Buffer.zero 150, Buffer.zero 1000, []⟩

def bob : Arg := sampleArg "bob" (by decide)

/-- `ktimer -s 1 bob`, up to its write. -/
def bobWrites : List SysEvent :=
  [sampleStart 7 (by decide) (.set (sampleArg "1" (by decide)) bob),
    sampleAct 7, sampleAct 7, sampleAct 7, sampleAct 7]

end DevKota.Lab3
