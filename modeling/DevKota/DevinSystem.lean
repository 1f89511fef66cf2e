import DevKota.DevinAlarm
import DevKota.Lab3Client

/-! Any number of processes of the older client over its driver. Each system call is one atomic
step; client steps, firings, signal deliveries and deaths interleave freely. -/
namespace DevKota.Devin
open CString Kernel Runs
open Lab3 (Config Arg pad parseSec parseMsg accepted)
attribute [local irreducible] Driver.mytimerWrite

/-- What `main` finds in its arguments. The third one is formatted whether or not it was given. -/
inductive Job
  | list (third : Arg)
  | set (sec msg : Arg)
  | other (third : Arg)

namespace Job

/-- `write(pFile, to_kernel, strlen(to_kernel) + 1)`. The second argument of `-l` is a null
pointer; `-s` formats its command twice, as the lab3 client does. -/
def written : Job → Option UserBuf
  | list third =>
    let toKernel := (Buffer.zero 150).snprintf 0 (ascii "-l (null) " ++ third.text)
    some ⟨toKernel.bytes.take ((cstr toKernel.bytes).length + 1), true⟩
  | set sec msg => some (Lab3.Invocation.set sec msg).written
  | other _ => none

def third : Job → Arg
  | list third | other third => third
  | set _ msg => msg

/-- The line that the signal handler prints: `timer_msg` with a second newline. -/
def alarmText (j : Job) : List Byte :=
  cstr ((Buffer.zero 128).snprintf 0 (j.third.text ++ ascii "\n")).bytes ++ ascii "\n"

end Job

/-- Where a client stands between two of its steps. -/
inductive Phase
  | started -- SIGIO still has its default action
  | handling -- the handler is installed and the file's owner set
  | listening -- the file is in the driver's queue
  | written -- the write is made, `pause()` not yet called
  | paused
  | finishing
  deriving DecidableEq

def Phase.registered : Phase → Bool
  | .started | .handling => false
  | _ => true

def Phase.waiting : Phase → Bool
  | .written | .paused => true
  | _ => false

/-- Only `-s` waits after its write. -/
def Job.next : Job → Phase
  | .set _ _ => .written
  | _ => .finishing

/-- A running client, with two records of the past: the firings there had been when it
registered, and the signals it has handled. -/
structure Proc where
  task : Task
  job : Job
  phase : Phase
  sigio : Bool
  joined : ℕ
  heard : ℕ

/-- What the handler has printed so far. -/
def Proc.printed (c : Proc) : List Byte := (List.replicate c.heard c.job.alarmText).flatten

/-- The driver, the clients by pid, and how often the timer has fired. -/
structure Sys where
  now : ℕ
  driver : Driver
  procs : ℕ → Option Proc
  firings : ℕ

namespace Sys

def booted (now : ℕ) : Sys := ⟨now, Driver.mytimerInit now, fun _ => none, 0⟩

def setProc (s : Sys) (pid : ℕ) (c : Option Proc) : Sys :=
  { s with procs := Function.update s.procs pid c }

def moveTo (s : Sys) (c : Proc) (next : Phase) : Sys :=
  s.setProc c.task.pid (some { c with phase := next })

/-- `fcntl(pFile, F_SETFL, oflags | FASYNC)`. -/
def listen (s : Sys) (c : Proc) : Sys :=
  { s with driver := s.driver.mytimerAsync c.task.pid true }.setProc c.task.pid
    (some { c with phase := .listening, joined := s.firings })

def write (cfg : Config) (s : Sys) (c : Proc) : Sys :=
  match c.job.written with
  | some buf => { s with driver := (s.driver.mytimerWrite cfg s.now c.task buf).1 }
  | none => s

/-- The process ends. Its file is closed, and the kernel takes a closed file off the queue. -/
def leave (s : Sys) (pid : ℕ) : Sys :=
  { s with driver := s.driver.mytimerAsync pid false }.setProc pid none

/-- The next step of `main`. Nothing but a signal ends `pause()`. -/
def act (cfg : Config) (s : Sys) (c : Proc) : Option Sys :=
  match c.phase with
  | .started => some (s.moveTo c .handling)
  | .handling => some (s.listen c)
  | .listening => some ((s.write cfg c).moveTo c c.job.next)
  | .written => some (s.moveTo c .paused)
  | .paused => none
  | .finishing => some (s.leave c.task.pid)

/-- SIGIO to every process with a file in the queue. -/
def signal (s : Sys) (pids : List ℕ) : Sys :=
  { s with procs := fun p => (s.procs p).map fun c =>
      if p ∈ pids then { c with sigio := true } else c }

/-- The handler runs and ends a `pause()`, or SIGIO ends a process without a handler. -/
def deliver (s : Sys) (pid : ℕ) (c : Proc) : Sys :=
  let c' := { c with sigio := false, heard := c.heard + 1 }
  match c.phase with
  | .started => s.leave pid
  | .paused => s.setProc pid (some { c' with phase := .finishing })
  | _ => s.setProc pid (some c')

end Sys

inductive SysEvent
  | tick (ticks : ℕ)
  | start (task : Task) (job : Job)
  | act (pid : ℕ)
  | deliver (pid : ℕ)
  | die (pid : ℕ) -- the process is killed from outside
  | fire

/-- One atomic step of the whole system. -/
def sysStep (cfg : Config) (s : Sys) : SysEvent → Option Sys
  | .tick ticks => some { s with now := s.now + ticks }
  | .start task job =>
    -- a pid is given out again once it is free
    if s.procs task.pid = none then
      some (s.setProc task.pid (some ⟨task, job, .started, false, 0, 0⟩))
    else none
  | .act pid => (s.procs pid).bind (s.act cfg)
  | .deliver pid =>
    (s.procs pid).bind fun c => if c.sigio then some (s.deliver pid c) else none
  | .die pid => (s.procs pid).map fun _ => s.leave pid
  | .fire =>
    if s.driver.timer.timer.Expired s.now then
      s.driver.expire.map fun r => { s with driver := r.1, firings := s.firings + 1 }.signal r.2
    else none

namespace Sys

@[simp] theorem setProc_procs (s : Sys) (pid : ℕ) (c : Option Proc) :
    (s.setProc pid c).procs = Function.update s.procs pid c := rfl
@[simp] theorem setProc_driver (s : Sys) (pid : ℕ) (c : Option Proc) :
    (s.setProc pid c).driver = s.driver := rfl
@[simp] theorem setProc_firings (s : Sys) (pid : ℕ) (c : Option Proc) :
    (s.setProc pid c).firings = s.firings := rfl
@[simp] theorem setProc_now (s : Sys) (pid : ℕ) (c : Option Proc) :
    (s.setProc pid c).now = s.now := rfl

theorem moveTo_eq (s : Sys) (c : Proc) (next : Phase) :
    s.moveTo c next = s.setProc c.task.pid (some { c with phase := next }) := rfl

theorem write_frame (cfg : Config) (s : Sys) (c : Proc) :
    (s.write cfg c).procs = s.procs ∧ (s.write cfg c).firings = s.firings ∧
      (s.write cfg c).now = s.now := by
  unfold write
  split <;> exact ⟨rfl, rfl, rfl⟩

/-- Where a process comes from after a change at one pid. -/
theorem procs_cases (s t : Sys) (pid : ℕ) (c' : Option Proc)
    (ht : t.procs = Function.update s.procs pid c') (p : ℕ) (b : Proc) (hb : t.procs p = some b) :
    p = pid ∧ c' = some b ∨ p ≠ pid ∧ s.procs p = some b := by
  rw [ht] at hb
  by_cases hp : p = pid
  · subst hp
    rw [Function.update_self] at hb
    exact Or.inl ⟨rfl, hb⟩
  · rw [Function.update_of_ne hp] at hb
    exact Or.inr ⟨hp, hb⟩

end Sys

section Inversion
variable (cfg : Config) (s t : Sys)

theorem act_cases (pid : ℕ) (h : sysStep cfg s (.act pid) = some t) :
    ∃ c, s.procs pid = some c ∧
      (c.phase = .started ∧ t = s.moveTo c .handling ∨
        c.phase = .handling ∧ t = s.listen c ∨
        c.phase = .listening ∧ t = (s.write cfg c).moveTo c c.job.next ∨
        c.phase = .written ∧ t = s.moveTo c .paused ∨
        c.phase = .finishing ∧ t = s.leave c.task.pid) := by
  obtain ⟨c, hc, ht⟩ := Option.bind_eq_some_iff.mp h
  refine ⟨c, hc, ?_⟩
  unfold Sys.act at ht
  cases hp : c.phase <;> simp only [hp, Option.some.injEq, reduceCtorEq] at ht <;> simp [ht]

theorem deliver_cases (pid : ℕ) (h : sysStep cfg s (.deliver pid) = some t) :
    ∃ c, s.procs pid = some c ∧ c.sigio = true ∧ t = s.deliver pid c := by
  obtain ⟨c, hc, ht⟩ := Option.bind_eq_some_iff.mp h
  split_ifs at ht with hs
  exact ⟨c, hc, hs, (Option.some.inj ht).symm⟩

theorem start_cases (task : Task) (job : Job) (h : sysStep cfg s (.start task job) = some t) :
    s.procs task.pid = none ∧
      t = s.setProc task.pid (some ⟨task, job, .started, false, 0, 0⟩) := by
  simp only [sysStep] at h
  split_ifs at h with hn
  exact ⟨hn, (Option.some.inj h).symm⟩

theorem die_cases (pid : ℕ) (h : sysStep cfg s (.die pid) = some t) : t = s.leave pid := by
  obtain ⟨c, -, ht⟩ := Option.map_eq_some_iff.mp h
  exact ht.symm

theorem fire_cases (h : sysStep cfg s .fire = some t) :
    s.driver.timer.timer.Expired s.now ∧ ∃ r, s.driver.expire = some r ∧
      t = { s with driver := r.1, firings := s.firings + 1 }.signal r.2 := by
  simp only [sysStep] at h
  split_ifs at h with hx
  obtain ⟨r, hr, ht⟩ := Option.map_eq_some_iff.mp h
  exact ⟨hx, r, hr, ht.symm⟩

end Inversion

section Driver
variable (cfg : Config) (s t : Sys)

/-- The driver sees the steps of the system as its own events, at most one for each. -/
theorem driver_step (e : SysEvent) (h : sysStep cfg s e = some t) :
    (t.now = s.now ∧ t.driver = s.driver) ∨
      ∃ f, step cfg ⟨s.now, s.driver⟩ f = some ⟨t.now, t.driver⟩ := by
  cases e with
  | tick ticks =>
    obtain rfl := Option.some.inj h
    exact Or.inr ⟨.tick ticks, rfl⟩
  | start task job =>
    obtain ⟨-, rfl⟩ := start_cases cfg s t task job h
    exact Or.inl ⟨rfl, rfl⟩
  | act pid =>
    obtain ⟨c, -, ⟨-, rfl⟩ | ⟨-, rfl⟩ | ⟨-, rfl⟩ | ⟨-, rfl⟩ | ⟨-, rfl⟩⟩ := act_cases cfg s t pid h
    · exact Or.inl ⟨rfl, rfl⟩
    -- `fcntl` registers
    · exact Or.inr ⟨.async c.task.pid true, rfl⟩
    · rw [Sys.moveTo_eq, Sys.setProc_driver, Sys.setProc_now]
      unfold Sys.write
      split
      · rename_i buf _
        exact Or.inr ⟨.write c.task buf, rfl⟩
      · exact Or.inl ⟨rfl, rfl⟩
    · exact Or.inl ⟨rfl, rfl⟩
    -- the end of a process closes its file
    · exact Or.inr ⟨.async c.task.pid false, rfl⟩
  | deliver pid =>
    obtain ⟨c, -, -, rfl⟩ := deliver_cases cfg s t pid h
    unfold Sys.deliver
    split
    · exact Or.inr ⟨.async pid false, rfl⟩
    · exact Or.inl ⟨rfl, rfl⟩
    · exact Or.inl ⟨rfl, rfl⟩
  | die pid =>
    obtain rfl := die_cases cfg s t pid h
    exact Or.inr ⟨.async pid false, rfl⟩
  | fire =>
    obtain ⟨hx, r, hr, rfl⟩ := fire_cases cfg s t h
    refine Or.inr ⟨.fire, ?_⟩
    simp only [step, if_pos hx, hr, Option.map_some]
    rfl

theorem driver_reach (load : ℕ) (guard : Sys → SysEvent → Prop)
    (h : Reach (sysStep cfg) guard (.booted load) s) :
    Reach (step cfg) (fun _ _ => True) (loaded load) ⟨s.now, s.driver⟩ := by
  refine reach_invariant
    (I := fun s => Reach (step cfg) (fun _ _ => True) (loaded load) ⟨s.now, s.driver⟩) ?_ h
    (reach_refl _)
  intro s e t hi _ hs
  rcases driver_step cfg s t e hs with ⟨hn, hd⟩ | ⟨f, hf⟩
  · rw [hn, hd]
    exact hi
  · exact reach_tail f hi trivial hf

/-- The longest wait that a set command can ask for. -/
def longest (cfg : Config) : ℕ := 99999*cfg.HZ

theorem alarmSet_le (now : ℕ) (userBuf m : List Byte) (a : Option Alarm)
    (h : ∀ b, a = some b → b.deadline ≤ now + longest cfg) :
    (alarmSet m (now + (parseSec userBuf).toNat*cfg.HZ) a).deadline ≤ now + longest cfg := by
  have hnew : now + (parseSec userBuf).toNat*cfg.HZ ≤ now + longest cfg := by
    have := Lab3.parseSec_lt userBuf
    exact Nat.add_le_add_left (Nat.mul_le_mul_right _ (by omega)) _
  cases a with
  | none => exact hnew
  | some b =>
    simp only [alarmSet]
    split_ifs
    · exact hnew
    · exact h b rfl

theorem deadline_step (b b' : Board) (e : Event) (hs : boardStep cfg b e = some b')
    (h : ∀ a, b.alarm = some a → a.deadline ≤ b.now + longest cfg) :
    ∀ a, b'.alarm = some a → a.deadline ≤ b'.now + longest cfg := by
  cases e with
  | tick ticks =>
    obtain rfl := Option.some.inj hs
    intro a ha
    exact (h a ha).trans (by change _ ≤ b.now + ticks + _; omega)
  | write current buf =>
    simp only [boardStep] at hs
    split_ifs at hs
    · obtain rfl := Option.some.inj hs
      intro a ha
      rw [← Option.some.inj ha]
      -- an alarm that runs keeps its old deadline or gets a new one, from now
      exact alarmSet_le cfg b.now _ _ b.alarm h
    · obtain rfl := Option.some.inj hs
      exact h
  | async pid on =>
    obtain rfl := Option.some.inj hs
    exact h
  | fire =>
    obtain ⟨-, -, rfl⟩ := Option.map_eq_some_iff.mp hs
    intro a ha
    cases ha
  | read =>
    obtain rfl := Option.some.inj hs
    exact h

/-- The module's invariant and the bound on the wait, in every state of the driver. -/
theorem driver_inv (load : ℕ) (u : State)
    (h : Reach (step cfg) (fun _ _ => True) (loaded load) u) :
    Inv load u.driver ∧ ∀ a, u.driver.alarm = some a → a.deadline ≤ u.now + longest cfg := by
  refine reach_invariant (I := fun u => Inv load u.driver ∧
    ∀ a, u.driver.alarm = some a → a.deadline ≤ u.now + longest cfg) ?_ h ⟨inv_init load, ?_⟩
  · intro u e v hu _ hs
    obtain ⟨hinv, hboard⟩ := step_board cfg load u hu.1 e
    rw [hs, Option.map_some] at hboard
    exact ⟨hinv v hs, deadline_step cfg (board u) (board v) e hboard.symm hu.2⟩
  · intro a ha
    cases ha

theorem sys_inv (load : ℕ) (guard : Sys → SysEvent → Prop)
    (h : Reach (sysStep cfg) guard (.booted load) s) :
    Inv load s.driver ∧ ∀ a, s.driver.alarm = some a → a.deadline ≤ s.now + longest cfg :=
  driver_inv cfg load _ (driver_reach cfg s load guard h)

end Driver

/-- Two clients, to execute the system on: the second one finds the driver full. -/
def sampleStart (pid : ℕ) (hp : 0 < pid ∧ pid < 2^31) (sec msg : Arg) : SysEvent :=
  .start (Lab3.sampleTask pid hp) (.set sec msg)

def twoSleepers : List SysEvent :=
  [sampleStart 51 (by decide) ⟨ascii "2", by decide⟩ ⟨ascii "tea", by decide⟩,
    sampleStart 52 (by decide) ⟨ascii "9", by decide⟩ ⟨ascii "egg", by decide⟩,
    .act 51, .act 51, .act 51, .act 51, .act 52, .act 52, .act 52, .act 52]

end DevKota.Devin
