import DevKota.Lab3System

/-! Whom the lab3 timers signal when nobody runs `ktimer -r`. -/
namespace DevKota.Lab3
open CString Kernel Runs
attribute [local irreducible] Driver.mytimerWrite Driver.mytimerRead Driver.mytimerProcShow
  Driver.insertsAt

/-- The command lines under consideration. -/
def NoRemove (_ : Sys) : SysEvent → Prop
  | .start _ _ job => ∀ second third, job ≠ .invoke (.remove second third)
  | _ => True

/-- A timer that fires signals a running client, which created it for its own message; and a
client that printed `The timer ... was updated!` has never owned a slot. -/
structure SignalsRightly (s : Sys) : Prop where
  fired (k : Fin maxTimers) (r : Driver × ℕ) (hx : (s.driver.timers k).timer.Expired s.now)
    (hr : s.driver.expire k = some r) :
    ∃ c sec msg, s.procs r.2 = some c ∧ s.creator k = some c.uid ∧
      c.job = .invoke (.set sec msg) ∧ msg.text = (s.driver.timers k).msg
  updated (u : ℕ) (h : u ∈ s.printed) : u ∉ s.creators

/-- A new timer is created only for a client that decided to create it, and its message is the
argument of that client. -/
def CreatesOwn (s : Sys) : SysEvent → Prop
  | .act pid _ => ∀ c sec msg, s.procs pid = some c → c.job = .invoke (.set sec msg) →
      s.driver.insertsAt (Invocation.set sec msg).written ≠ none →
      c.phase ≠ .decided .updated ∧
        (c.phase = .decided .created →
          parseMsg (pad 150 (Invocation.set sec msg).written.bytes) = msg.text)
  | e => NoRemove s e

/-- The records of the past fit the clients that run. -/
structure Books (s : Sys) : Prop where
  fresh (p : ℕ) (c : Proc) (hc : s.procs p = some c) : c.uid < s.nextUid
  distinct (p q : ℕ) (c b : Proc) (hc : s.procs p = some c) (hb : s.procs q = some b)
    (h : c.uid = b.uid) : p = q
  noRemove (p : ℕ) (c : Proc) (hc : s.procs p = some c) (second third : Arg) :
    c.job ≠ .invoke (.remove second third)
  quiet (p : ℕ) (c : Proc) (hc : s.procs p = some c) (h : c.sigio = true) : c.phase.late = true
  created (u : ℕ) (h : u ∈ s.creators) : u < s.nextUid ∧
    u ∉ s.printed ∧ ∀ p c, s.procs p = some c → c.uid = u → c.phase.late = true
  printed (u : ℕ) (h : u ∈ s.printed) : u < s.nextUid ∧
    ∀ p c, s.procs p = some c → c.uid = u → c.phase = .finishing

/-- The client that waits for the timer of a slot. -/
structure Minds (s : Sys) (k : Fin maxTimers) (c : Proc) : Prop where
  owner : s.procs (s.driver.timers k).ownerPid = some c
  creator : s.creator k = some c.uid
  waiting : c.phase.waiting = true
  sigio : c.sigio = false
  message : ∃ sec msg, c.job = .invoke (.set sec msg) ∧ msg.text = (s.driver.timers k).msg

/-- Each armed timer has such a client, and no two have the same. -/
structure Minded (s : Sys) : Prop where
  minder (k : Fin maxTimers) (hp : (s.driver.timers k).timer.pending = true) : ∃ c, Minds s k c
  single (j k : Fin maxTimers) (hj : (s.driver.timers j).timer.pending = true)
    (hk : (s.driver.timers k).timer.pending = true)
    (h : (s.driver.timers j).ownerPid = (s.driver.timers k).ownerPid) : j = k

theorem rightly_of_invariants (s : Sys) (hb : Books s) (hm : Minded s) (harmed : ActiveArmed s.driver) :
    SignalsRightly s where
  fired k r hx hr := by
    obtain ⟨c, hc⟩ := hm.minder k hx.1
    obtain ⟨sec, msg, hj, htext⟩ := hc.message
    have hpid := (expire_cases s.driver k r harmed hx.1 hr).1
    exact ⟨c, sec, msg, by rw [hpid]; exact hc.owner, hc.creator, hj, htext⟩
  updated u h hu := (hb.created u hu).2.1 h

section Books

/-- What one step makes of a client that goes on. -/
structure Follows (c b : Proc) : Prop where
  uid : b.uid = c.uid
  job : b.job = c.job
  late : c.phase.late = true → b.phase.late = true
  finishing : c.phase = .finishing → b.phase = .finishing
  sigio : b.sigio = true → c.sigio = true ∨ b.phase.late = true

theorem follows_refl (c : Proc) : Follows c c := ⟨rfl, rfl, id, id, Or.inl⟩

/-- A step after which every client follows one of before, and which records no slot and no
message but those of a client that has come to the right place. -/
theorem books_follow (s t : Sys) (h : Books s) (hnext : t.nextUid = s.nextUid)
    (hprocs : ∀ p b, t.procs p = some b → ∃ c, s.procs p = some c ∧ Follows c b)
    (hcreators : ∀ u, u ∈ t.creators → u ∈ s.creators ∨ u < s.nextUid ∧
      u ∉ s.printed ∧ ∀ p b, t.procs p = some b → b.uid = u → b.phase.late = true)
    (hprinted : ∀ u, u ∈ t.printed → u ∈ s.printed ∨ u < s.nextUid ∧
      u ∉ t.creators ∧ ∀ p b, t.procs p = some b → b.uid = u → b.phase = .finishing) :
    Books t where
  fresh p b hb := by
    obtain ⟨c, hc, hf⟩ := hprocs p b hb
    rw [hnext, hf.uid]
    exact h.fresh p c hc
  distinct p q b b' hb hb' hu := by
    obtain ⟨c, hc, hf⟩ := hprocs p b hb
    obtain ⟨c', hc', hf'⟩ := hprocs q b' hb'
    rw [hf.uid, hf'.uid] at hu
    exact h.distinct p q c c' hc hc' hu
  noRemove p b hb := by
    obtain ⟨c, hc, hf⟩ := hprocs p b hb
    rw [hf.job]
    exact h.noRemove p c hc
  quiet p b hb hs := by
    obtain ⟨c, hc, hf⟩ := hprocs p b hb
    rcases hf.sigio hs with hsig | hlate
    · exact hf.late (h.quiet p c hc hsig)
    · exact hlate
  created u hu := by
    rw [hnext]
    rcases hcreators u hu with hold | ⟨hlt, hnot, hlate⟩
    · -- recorded before: its client was late already, and stays late
      obtain ⟨hlt, hnot, hlate⟩ := h.created u hold
      refine ⟨hlt, fun hmem => ?_, fun p b hb hbu => ?_⟩
      · rcases hprinted u hmem with hp | hp
        · exact hnot hp
        · exact hp.2.1 hu
      · obtain ⟨c, hc, hf⟩ := hprocs p b hb
        exact hf.late (hlate p c hc (hf.uid ▸ hbu))
    · refine ⟨hlt, fun hmem => ?_, hlate⟩
      rcases hprinted u hmem with hp | hp
      · exact hnot hp
      · exact hp.2.1 hu
  printed u hu := by
    rw [hnext]
    rcases hprinted u hu with hold | hnew
    · obtain ⟨hlt, hfin⟩ := h.printed u hold
      refine ⟨hlt, fun p b hb hbu => ?_⟩
      obtain ⟨c, hc, hf⟩ := hprocs p b hb
      exact hf.finishing (hfin p c hc (hf.uid ▸ hbu))
    · exact ⟨hnew.1, hnew.2.2⟩

/-- The common case: one process moves on or ends, and nothing is recorded. -/
theorem books_update (s t : Sys) (h : Books s) (hnext : t.nextUid = s.nextUid)
    (hcreators : t.creators = s.creators) (hprinted : t.printed = s.printed) (pid : ℕ) (c : Proc)
    (c' : Option Proc) (hc : s.procs pid = some c) (ht : t.procs = Function.update s.procs pid c')
    (hf : ∀ b, c' = some b → Follows c b) : Books t := by
  apply books_follow s t h hnext
  · intro p b hb
    rcases Sys.procs_cases s t pid c' ht p b hb with ⟨rfl, hnew⟩ | ⟨-, hold⟩
    · exact ⟨c, hc, hf b hnew⟩
    · exact ⟨b, hold, follows_refl b⟩
  · intro u hu
    rw [hcreators] at hu
    exact Or.inl hu
  · intro u hu
    rw [hprinted] at hu
    exact Or.inl hu

theorem follows_of_early (c : Proc) (next : Phase) (hc : c.phase.late = false) :
    Follows c { c with phase := next } := by
  refine ⟨rfl, rfl, fun h => ?_, fun h => ?_, Or.inl⟩
  · rw [hc] at h
    cases h
  · rw [h] at hc
    cases hc

/-- A write records its client as a creator only if that client is going to wait. -/
theorem books_write (cfg : Config) (s : Sys) (h : Books s) (c : Proc) (v : Invocation) (next : Phase)
    (hc : s.procs c.task.pid = some c) (hearly : c.phase.late = false)
    (hins : s.driver.insertsAt v.written ≠ none → next.late = true) :
    Books ((s.write cfg c v.written).moveTo c next) := by
  have hprocs := Sys.procs_cases s ((s.write cfg c v.written).moveTo c next) c.task.pid
    (some { c with phase := next }) rfl
  -- the clients, the creators, the printers
  refine books_follow s _ h rfl ?_ ?_ ?_
  · intro p b hb
    rcases hprocs p b hb with ⟨rfl, hnew⟩ | ⟨-, hold⟩
    · rw [← Option.some.inj hnew]
      exact ⟨c, hc, follows_of_early c next hearly⟩
    · exact ⟨b, hold, follows_refl b⟩
  · intro u hu
    change u ∈ (s.write cfg c v.written).creators at hu
    cases hi : s.driver.insertsAt v.written with
    | none =>
      rw [(Sys.write_creator_none cfg s c _ hi).2] at hu
      exact Or.inl hu
    | some i =>
      rw [(Sys.write_creator cfg s c _ i hi).2] at hu
      rcases List.mem_cons.mp hu with rfl | hu
      · -- the client whose write this is
        refine Or.inr ⟨h.fresh _ c hc, fun hmem => ?_, fun p b hb hbu => ?_⟩
        · have hfin := (h.printed c.uid hmem).2 _ c hc rfl
          rw [hfin] at hearly
          cases hearly
        · rcases hprocs p b hb with ⟨-, hnew⟩ | ⟨hp, hold⟩
          · rw [← Option.some.inj hnew]
            exact hins (by rw [hi]; simp)
          · exact absurd (h.distinct p _ b c hold hc hbu) hp
      · exact Or.inl hu
  · intro u hu
    exact Or.inl hu

/-- A client prints its message between the write of an update and its end. -/
theorem books_print (s : Sys) (h : Books s) (c : Proc) (hc : s.procs c.task.pid = some c)
    (hp : c.phase = .updating) :
    Books ({ s with printed := c.uid :: s.printed }.moveTo c .finishing) := by
  have hearly : c.phase.late = false := by rw [hp]; rfl
  have hprocs := Sys.procs_cases s ({ s with printed := c.uid :: s.printed }.moveTo c .finishing)
    c.task.pid (some { c with phase := .finishing }) rfl
  refine books_follow s _ h rfl ?_ ?_ ?_
  · intro p b hb
    rcases hprocs p b hb with ⟨rfl, hnew⟩ | ⟨-, hold⟩
    · rw [← Option.some.inj hnew]
      exact ⟨c, hc, follows_of_early c _ hearly⟩
    · exact ⟨b, hold, follows_refl b⟩
  · intro u hu
    exact Or.inl hu
  · intro u hu
    rcases List.mem_cons.mp hu with rfl | hold
    · refine Or.inr ⟨h.fresh _ c hc, fun hmem => ?_, fun p b hb hbu => ?_⟩
      · -- a creator would be waiting, or have been woken
        have hlate := (h.created c.uid hmem).2.2 _ c hc rfl
        rw [hearly] at hlate
        cases hlate
      · rcases hprocs p b hb with ⟨-, hnew⟩ | ⟨hp, hold⟩
        · rw [← Option.some.inj hnew]
        · exact absurd (h.distinct p _ b c hold hc hbu) hp
    · exact Or.inl hold

theorem books_start (s : Sys) (h : Books s) (task : Task) (pgrp : ℕ) (job : Job)
    (hjob : ∀ second third, job ≠ .invoke (.remove second third)) :
    Books { s.setProc task.pid (some ⟨s.nextUid, task, pgrp, job, .started, false⟩) with
      nextUid := s.nextUid + 1 } := by
  -- the new client has a number above all others and stands in no record
  have hprocs (p : ℕ) (b : Proc) (hb : (s.setProc task.pid
      (some ⟨s.nextUid, task, pgrp, job, .started, false⟩)).procs p = some b) :
      p = task.pid ∧ b = ⟨s.nextUid, task, pgrp, job, .started, false⟩ ∨
        s.procs p = some b ∧ b.uid < s.nextUid := by
    rcases Sys.procs_cases s _ task.pid _ rfl p b hb with ⟨hp, hnew⟩ | ⟨-, hold⟩
    · exact Or.inl ⟨hp, (Option.some.inj hnew).symm⟩
    · exact Or.inr ⟨hold, h.fresh p b hold⟩
  refine ⟨fun p c hc => ?_, fun p q c b hc hb hu => ?_, fun p c hc => ?_, fun p c hc hs => ?_,
    fun u hu => ?_, fun u hu => ?_⟩
  · change c.uid < s.nextUid + 1
    rcases hprocs p c hc with ⟨-, rfl⟩ | ⟨-, hlt⟩
    · exact Nat.lt_succ_self _
    · exact Nat.lt_succ_of_lt hlt
  · rcases hprocs p c hc with ⟨rfl, rfl⟩ | ⟨hc, hlt⟩
    · rcases hprocs q b hb with ⟨rfl, -⟩ | ⟨-, hlt⟩
      · rfl
      · exact absurd hu.symm (Nat.ne_of_lt hlt)
    · rcases hprocs q b hb with ⟨-, rfl⟩ | ⟨hb, -⟩
      · exact absurd hu (Nat.ne_of_lt hlt)
      · exact h.distinct p q c b hc hb hu
  · rcases hprocs p c hc with ⟨-, rfl⟩ | ⟨hold, -⟩
    · exact hjob
    · exact h.noRemove p c hold
  · rcases hprocs p c hc with ⟨-, rfl⟩ | ⟨hold, -⟩
    · cases hs
    · exact h.quiet p c hold hs
  · obtain ⟨hlt, hnot, hlate⟩ := h.created u hu
    refine ⟨Nat.lt_succ_of_lt hlt, hnot, fun p c hc hcu => ?_⟩
    rcases hprocs p c hc with ⟨-, rfl⟩ | ⟨hold, -⟩
    · exact absurd hcu.symm (Nat.ne_of_lt hlt)
    · exact hlate p c hold hcu
  · obtain ⟨hlt, hfin⟩ := h.printed u hu
    refine ⟨Nat.lt_succ_of_lt hlt, fun p c hc hcu => ?_⟩
    rcases hprocs p c hc with ⟨-, rfl⟩ | ⟨hold, -⟩
    · exact absurd hcu.symm (Nat.ne_of_lt hlt)
    · exact hfin p c hold hcu

end Books

section Minded

/-- The client still waits after the step, undisturbed. -/
def StaysWaiting (t : Sys) (pid : ℕ) (c : Proc) : Prop :=
  ∃ b, t.procs pid = some b ∧ b.uid = c.uid ∧ b.job = c.job ∧ b.phase.waiting = true ∧ b.sigio = false

/-- The client of an armed slot survives whatever leaves the slot and the client alone. -/
theorem minds_follow (s t : Sys) (k : Fin maxTimers) (c : Proc) (hm : Minds s k c)
    (howner : (t.driver.timers k).ownerPid = (s.driver.timers k).ownerPid)
    (hmsg : (t.driver.timers k).msg = (s.driver.timers k).msg) (hcreator : t.creator k = s.creator k)
    (hstay : StaysWaiting t (s.driver.timers k).ownerPid c) : ∃ b, Minds t k b := by
  obtain ⟨b, hb, huid, hjob, hw, hs⟩ := hstay
  refine ⟨b, ?_, ?_, hw, hs, ?_⟩
  · rw [howner]
    exact hb
  · rw [hcreator, huid]
    exact hm.creator
  · rw [hjob, hmsg]
    exact hm.message

theorem minded_follow (s t : Sys) (h : Minded s)
    (harmed : ∀ k, (t.driver.timers k).timer.pending = true →
      (s.driver.timers k).timer.pending = true ∧
      (t.driver.timers k).ownerPid = (s.driver.timers k).ownerPid ∧
      (t.driver.timers k).msg = (s.driver.timers k).msg ∧ t.creator k = s.creator k)
    (hstay : ∀ k c, (t.driver.timers k).timer.pending = true → Minds s k c →
      StaysWaiting t (s.driver.timers k).ownerPid c) : Minded t where
  minder k hp := by
    obtain ⟨hps, howner, hmsg, hcreator⟩ := harmed k hp
    obtain ⟨c, hc⟩ := h.minder k hps
    exact minds_follow s t k c hc howner hmsg hcreator (hstay k c hp hc)
  single j k hj hk hjk := by
    obtain ⟨hpj, hoj, -, -⟩ := harmed j hj
    obtain ⟨hpk, hok, -, -⟩ := harmed k hk
    rw [hoj, hok] at hjk
    exact h.single j k hpj hpk hjk

/-- The client of a slot is another process than one that does not wait, or has been signalled. -/
theorem minds_other (s : Sys) (k : Fin maxTimers) (m c : Proc) (pid : ℕ) (hm : Minds s k m)
    (hc : s.procs pid = some c) (hn : c.phase.waiting = false ∨ c.sigio = true) :
    (s.driver.timers k).ownerPid ≠ pid := by
  intro hpid
  have hmc := hm.owner
  rw [hpid, hc] at hmc
  obtain rfl := Option.some.inj hmc
  rcases hn with hw | hs
  · rw [hm.waiting] at hw
    cases hw
  · rw [hm.sigio] at hs
    cases hs

theorem stays_of_other (s t : Sys) (k : Fin maxTimers) (m c : Proc) (pid : ℕ) (c' : Option Proc)
    (hm : Minds s k m) (hc : s.procs pid = some c) (ht : t.procs = Function.update s.procs pid c')
    (hn : c.phase.waiting = false ∨ c.sigio = true) :
    StaysWaiting t (s.driver.timers k).ownerPid m := by
  refine ⟨m, ?_, rfl, rfl, hm.waiting, hm.sigio⟩
  rw [ht, Function.update_of_ne (minds_other s k m c pid hm hc hn)]
  exact hm.owner

/-- A step of a client that nobody's timer waits for, on a driver it does not change. -/
theorem minded_update (s t : Sys) (h : Minded s) (htimers : t.driver.timers = s.driver.timers)
    (hcreator : t.creator = s.creator) (pid : ℕ) (c : Proc) (c' : Option Proc)
    (hc : s.procs pid = some c) (ht : t.procs = Function.update s.procs pid c')
    (hn : c.phase.waiting = false ∨ c.sigio = true) : Minded t := by
  apply minded_follow s t h
  · intro k hp
    rw [htimers] at hp ⊢
    rw [hcreator]
    exact ⟨hp, rfl, rfl, rfl⟩
  · intro k m _ hm
    exact stays_of_other s t k m c pid c' hm hc ht hn

variable (cfg : Config)

theorem minded_write (s : Sys) (h : Minded s) (harmed : ActiveArmed s.driver) (c : Proc)
    (v : Invocation) (next : Phase) (hc : s.procs c.task.pid = some c)
    (hn : c.phase.waiting = false) (hi : s.driver.insertsAt v.written = none) :
    Minded ((s.write cfg c v.written).moveTo c next) := by
  apply minded_follow s _ h
  · intro k hp
    have hk : s.driver.insertsAt v.written ≠ some k := by
      rw [hi]
      simp
    obtain ⟨hps, howner, hmsg⟩ :=
      write_keeps_armed cfg s.now c.task s.driver v.written k harmed hk hp
    refine ⟨hps, howner, hmsg, ?_⟩
    exact congrFun (Sys.write_creator_none cfg s c _ hi).1 k
  · intro k m _ hm
    exact stays_of_other s _ k m c _ _ hm hc rfl (Or.inl hn)

theorem minded_insert (s : Sys) (h : Minded s) (harmed : ActiveArmed s.driver) (c : Proc)
    (sec msg : Arg) (i : Fin maxTimers) (hc : s.procs c.task.pid = some c)
    (hj : c.job = .invoke (.set sec msg)) (hn : c.phase.waiting = false) (hs : c.sigio = false)
    (hi : s.driver.insertsAt (Invocation.set sec msg).written = some i)
    (hmsg : parseMsg (pad 150 (Invocation.set sec msg).written.bytes) = msg.text) :
    Minded ((s.write cfg c (Invocation.set sec msg).written).moveTo c .written) := by
  let t := (s.write cfg c (Invocation.set sec msg).written).moveTo c .written
  have hcreator : t.creator = Function.update s.creator i (some c.uid) :=
    (Sys.write_creator cfg s c _ i hi).1
  -- the new slot
  have hfilled : (t.driver.timers i).ownerPid = c.task.pid ∧ (t.driver.timers i).msg = msg.text := by
    have hstored := fillTimer_stored cfg s.now c.task i _ _ _
      (write_fills cfg s.now c.task s.driver _ i hi)
    exact ⟨hstored.1, hstored.2.2.1.trans hmsg⟩
  -- the others
  have hkept (k : Fin maxTimers) (hk : k ≠ i) (hp : (t.driver.timers k).timer.pending = true) :
      (s.driver.timers k).timer.pending = true ∧
        (t.driver.timers k).ownerPid = (s.driver.timers k).ownerPid ∧
        (t.driver.timers k).msg = (s.driver.timers k).msg := by
    apply write_keeps_armed cfg s.now c.task s.driver _ k harmed _ hp
    intro hki
    rw [hi] at hki
    exact hk (Option.some.inj hki).symm
  have hother (k : Fin maxTimers) (hk : k ≠ i) (hp : (t.driver.timers k).timer.pending = true) :
      (t.driver.timers k).ownerPid ≠ c.task.pid := by
    obtain ⟨hps, howner, -⟩ := hkept k hk hp
    obtain ⟨m, hm⟩ := h.minder k hps
    rw [howner]
    exact minds_other s k m c c.task.pid hm hc (Or.inl hn)
  refine ⟨fun k hp => ?_, fun j k hpj hpk hjk => ?_⟩
  · by_cases hk : k = i
    · -- the writer minds its own timer
      subst hk
      refine ⟨{ c with phase := .written }, ?_, ?_, rfl, hs, sec, msg, hj, hfilled.2.symm⟩
      · rw [hfilled.1]
        exact Function.update_self _ _ _
      · rw [hcreator, Function.update_self]
    · obtain ⟨hps, howner, hmsgk⟩ := hkept k hk hp
      obtain ⟨m, hm⟩ := h.minder k hps
      apply minds_follow s t k m hm howner hmsgk
      · rw [hcreator, Function.update_of_ne hk]
      · exact stays_of_other s t k m c _ _ hm hc rfl (Or.inl hn)
  · by_cases hj : j = i
    · by_cases hk : k = i
      · rw [hj, hk]
      · rw [hj, hfilled.1] at hjk
        exact absurd hjk.symm (hother k hk hpk)
    · by_cases hk : k = i
      · rw [hk, hfilled.1] at hjk
        exact absurd hjk (hother j hj hpj)
      · obtain ⟨hpsj, hoj, -⟩ := hkept j hj hpj
        obtain ⟨hpsk, hok, -⟩ := hkept k hk hpk
        rw [hoj, hok] at hjk
        exact h.single j k hpsj hpsk hjk

/-- The timer that fires has had its client; the other slots have others. -/
theorem minded_fire (s : Sys) (h : Minded s) (harmed : ActiveArmed s.driver) (k : Fin maxTimers)
    (r : Driver × ℕ) (hx : (s.driver.timers k).timer.Expired s.now)
    (hr : s.driver.expire k = some r) : Minded ({ s with driver := r.1 }.signal r.2) := by
  obtain ⟨howner, -, -, hdisarmed, hothers⟩ := expire_cases s.driver k r harmed hx.1 hr
  -- what is armed now was armed before, in another slot
  have hne (j : Fin maxTimers) (hp : (r.1.timers j).timer.pending = true) : j ≠ k := by
    intro hjk
    rw [hjk, hdisarmed] at hp
    cases hp
  apply minded_follow s _ h
  · intro j hp
    have hsame := hothers j (hne j hp)
    change (r.1.timers j).timer.pending = true at hp
    change _ ∧ (r.1.timers j).ownerPid = _ ∧ (r.1.timers j).msg = _ ∧ s.creator j = s.creator j
    rw [hsame] at hp ⊢
    exact ⟨hp, rfl, rfl, rfl⟩
  · intro j m hp hm
    refine ⟨m, ?_, rfl, rfl, hm.waiting, hm.sigio⟩
    have hjk := hne j hp
    have hpj : (s.driver.timers j).timer.pending = true := by
      change (r.1.timers j).timer.pending = true at hp
      rwa [hothers j hjk] at hp
    have hpid : (s.driver.timers j).ownerPid ≠ r.2 := by
      rw [howner]
      intro he
      exact hjk (h.single j k hpj hx.1 he)
    change Function.update s.procs r.2 _ _ = _
    rw [Function.update_of_ne hpid]
    exact hm.owner

end Minded

section Step
variable (cfg : Config) (s : Sys) (hb : Books s) (hm : Minded s)
include hb hm

theorem creates_early (c : Proc) (d : Driver) (next : Phase) (hc : s.procs c.task.pid = some c)
    (hearly : c.phase.late = false) (hd : d.timers = s.driver.timers) :
    Books ({ s with driver := d }.moveTo c next) ∧ Minded ({ s with driver := d }.moveTo c next) := by
  constructor
  · refine books_update s _ hb rfl rfl rfl c.task.pid c _ hc rfl ?_
    intro b hb'
    rw [← Option.some.inj hb']
    exact follows_of_early c next hearly
  · exact minded_update s _ hm hd rfl c.task.pid c _ hc rfl (Or.inl (waiting_of_early _ hearly))

theorem creates_pause (c : Proc) (hc : s.procs c.task.pid = some c) (hp : c.phase = .written) :
    Books (s.moveTo c .paused) ∧ Minded (s.moveTo c .paused) := by
  constructor
  · refine books_update s _ hb rfl rfl rfl c.task.pid c _ hc rfl ?_
    intro b hb'
    rw [← Option.some.inj hb']
    refine ⟨rfl, rfl, fun _ => rfl, fun h => ?_, Or.inl⟩
    rw [hp] at h
    cases h
  · refine minded_follow s _ hm (fun k hk => ⟨hk, rfl, rfl, rfl⟩) (fun k m _ hk => ?_)
    by_cases hpid : (s.driver.timers k).ownerPid = c.task.pid
    · -- the client of this slot is the one that calls `pause()`
      have hmc := hk.owner
      rw [hpid, hc] at hmc
      obtain rfl := Option.some.inj hmc
      refine ⟨{ c with phase := .paused }, ?_, rfl, rfl, rfl, hk.sigio⟩
      rw [hpid]
      exact Function.update_self _ _ _
    · refine ⟨m, ?_, rfl, rfl, hk.waiting, hk.sigio⟩
      rw [Sys.moveTo_eq, Sys.setProc_procs, Function.update_of_ne hpid]
      exact hk.owner

theorem creates_write (harmed : ActiveArmed s.driver) (c : Proc) (v : Invocation) (next : Phase)
    (junk : Junk) (hc : s.procs c.task.pid = some c) (hfits : (Action.write v next).Fits c)
    (hg : CreatesOwn s (.act c.task.pid junk)) :
    Books ((s.write cfg c v.written).moveTo c next) ∧
      Minded ((s.write cfg c v.written).moveTo c next) := by
  obtain ⟨hj, hv⟩ := hfits
  have hcommand := commandOf_written v
  -- a write that fills no slot
  have hplain (hearly : c.phase.late = false) (hi : s.driver.insertsAt v.written = none) :
      Books ((s.write cfg c v.written).moveTo c next) ∧
        Minded ((s.write cfg c v.written).moveTo c next) :=
    ⟨books_write cfg s hb c v next hc hearly fun h => absurd hi h,
      minded_write cfg s hm harmed c v next hc (waiting_of_early _ hearly) hi⟩
  cases v with
  | count n third =>
    apply hplain
    · rw [hv.1]
      rfl
    · apply insertsAt_of_command
      rw [hcommand]
      simp
  | remove second third => exact absurd hj (hb.noRemove _ c hc second third)
  | set sec msg =>
    have hown := hg c sec msg hc hj
    cases hi : s.driver.insertsAt (Invocation.set sec msg).written with
    | none =>
      refine hplain ?_ hi
      rcases hv with ⟨hp, -⟩ | ⟨hp, -⟩ <;> rw [hp] <;> rfl
    | some i =>
      have hown := hown (by rw [hi]; simp)
      rcases hv with ⟨hp, rfl⟩ | ⟨hp, -⟩
      · -- the client decided to create, and its timer carries its message
        have hearly : c.phase.late = false := by rw [hp]; rfl
        have hs : c.sigio = false := by
          by_contra hsig
          have hlate := hb.quiet _ c hc (by simpa using hsig)
          rw [hearly] at hlate
          cases hlate
        exact ⟨books_write cfg s hb c _ .written hc hearly fun _ => rfl,
          minded_insert cfg s hm harmed c sec msg i hc hj (waiting_of_early _ hearly) hs hi
            (hown.2 hp)⟩
      · exact absurd hp hown.1

theorem creates_deliver (pid : ℕ) (c : Proc) (hc : s.procs pid = some c) (hs : c.sigio = true) :
    Books (s.deliver pid c) ∧ Minded (s.deliver pid c) := by
  -- a client with a signal pending has had its timer
  have hgeneral (c' : Option Proc) (hf : ∀ b, c' = some b → Follows c b) :
      Books (s.setProc pid c') ∧ Minded (s.setProc pid c') :=
    ⟨books_update s _ hb rfl rfl rfl pid c c' hc rfl hf,
      minded_update s _ hm rfl rfl pid c c' hc rfl (Or.inr hs)⟩
  unfold Sys.deliver
  split
  · apply hgeneral
    intro b hb'
    cases hb'
  · apply hgeneral
    intro b hb'
    rw [← Option.some.inj hb']
    exact ⟨rfl, rfl, fun _ => rfl, fun _ => rfl, fun h => by cases h⟩
  · apply hgeneral
    intro b hb'
    rw [← Option.some.inj hb']
    exact ⟨rfl, rfl, id, id, fun h => by cases h⟩

theorem creates_fire (harmed : ActiveArmed s.driver) (k : Fin maxTimers) (r : Driver × ℕ)
    (hx : (s.driver.timers k).timer.Expired s.now) (hr : s.driver.expire k = some r) :
    Books ({ s with driver := r.1 }.signal r.2) ∧ Minded ({ s with driver := r.1 }.signal r.2) := by
  refine ⟨?_, minded_fire s hm harmed k r hx hr⟩
  -- the signalled process is the client of the slot, which has made its last write
  obtain ⟨m, hk⟩ := hm.minder k hx.1
  have hpid : s.procs r.2 = some m := by
    rw [(expire_cases s.driver k r harmed hx.1 hr).1]
    exact hk.owner
  refine books_update s _ hb rfl rfl rfl r.2 m _ hpid rfl ?_
  intro b hb'
  obtain ⟨c, hc, rfl⟩ := Option.map_eq_some_iff.mp hb'
  have hmc : s.procs r.2 = some c := hc
  rw [hpid] at hmc
  obtain rfl := Option.some.inj hmc
  refine ⟨rfl, rfl, id, id, fun _ => Or.inr ?_⟩
  change m.phase.late = true
  rw [Phase.late, hk.waiting]
  rfl

/-- Steps that create timers for their own clients only keep the records and the clients of
the armed timers. -/
theorem creates_step (hok : ClientsOk s) (harmed : ActiveArmed s.driver) (t : Sys) (e : SysEvent)
    (hg : CreatesOwn s e) (hs : sysStep cfg s e = some t) : Books t ∧ Minded t := by
  cases e with
  | tick ticks =>
    obtain rfl := Option.some.inj hs
    exact ⟨⟨hb.fresh, hb.distinct, hb.noRemove, hb.quiet, hb.created, hb.printed⟩,
      minded_follow s _ hm (fun k hk => ⟨hk, rfl, rfl, rfl⟩)
        fun k m _ hk => ⟨m, hk.owner, rfl, rfl, hk.waiting, hk.sigio⟩⟩
  | start task pgrp job =>
    obtain ⟨hfree, rfl⟩ := start_cases cfg s t task pgrp job hs
    refine ⟨books_start s hb task pgrp job hg, ?_⟩
    refine minded_follow s _ hm (fun k hk => ⟨hk, rfl, rfl, rfl⟩) (fun k m _ hk => ?_)
    -- the owner of an armed slot runs, so its pid is not free
    have hpid : (s.driver.timers k).ownerPid ≠ task.pid := by
      intro he
      have howner := hk.owner
      rw [he, hfree] at howner
      cases howner
    refine ⟨m, ?_, rfl, rfl, hk.waiting, hk.sigio⟩
    rw [Sys.setProc_procs, Function.update_of_ne hpid]
    exact hk.owner
  | act pid junk =>
    obtain ⟨c, a, hc, hfits, rfl⟩ := act_cases cfg s t pid junk hs
    obtain rfl := (hok pid c hc).pid
    cases a with
    | goto next =>
      rcases hfits with ⟨rfl, hp⟩ | ⟨-, hearly⟩
      · exact creates_pause s hb hm c hc hp
      · exact creates_early s hb hm c s.driver next hc hearly rfl
    | readDevice =>
      have hp : c.phase = .ready := hfits
      refine creates_early s hb hm c (s.driver.mytimerRead cfg s.now 149 0).1 _ hc ?_ ?_
      · rw [hp]
        rfl
      · rw [mytimerRead_fst]
        rfl
    | readProc =>
      have hp : c.phase = .ready := hfits
      refine creates_early s hb hm c s.driver _ hc ?_ rfl
      rw [hp]
      rfl
    | write v next => exact creates_write cfg s hb hm harmed c v next junk hc hfits hg
    | printUpdated next =>
      obtain ⟨hp, rfl⟩ := hfits
      exact ⟨books_print s hb c hc hp,
        minded_update s _ hm rfl rfl c.task.pid c _ hc rfl (Or.inl (by rw [hp]; rfl))⟩
    | kill z next =>
      obtain ⟨-, second, third, hj⟩ := hfits
      exact absurd hj (hb.noRemove _ c hc second third)
    | exit =>
      refine ⟨books_update s _ hb rfl rfl rfl c.task.pid c none hc rfl ?_,
        minded_update s _ hm rfl rfl c.task.pid c none hc rfl (Or.inl hfits)⟩
      intro b hb'
      cases hb'
  | deliver pid =>
    obtain ⟨c, hc, hsig, rfl⟩ := deliver_cases cfg s t pid hs
    exact creates_deliver s hb hm pid c hc hsig
  | fire k =>
    obtain ⟨hx, r, hr, rfl⟩ := fire_cases cfg s t k hs
    exact creates_fire s hb hm harmed k r hx hr

end Step

theorem creates_reach (cfg : Config) (load : ℕ) (s : Sys)
    (h : Reach (sysStep cfg) CreatesOwn (.booted load) s) : Books s ∧ Minded s := by
  apply reach_invariant_with (J := fun s => ClientsOk s ∧ ActiveArmed s.driver) ?_ ?_ h
  · refine ⟨⟨fun p c hc => ?_, fun p q c b hc => ?_, fun p c hc => ?_, fun p c hc => ?_,
      fun u hu => ?_, fun u hu => ?_⟩, fun k hk => ?_, fun j k hj => ?_⟩
    · cases hc
    · cases hc
    · cases hc
    · cases hc
    · cases hu
    · cases hu
    · cases hk
    · cases hj
  · intro t ht
    exact ⟨sys_clients cfg load CreatesOwn t ht, sys_armed cfg load CreatesOwn t ht⟩
  · intro s e t hJ _ hI hg hs
    exact creates_step cfg s hI.1 hI.2 hJ.1 hJ.2 t e hg hs

/-- In every run whose new timers are created for clients that decided to create them, with
their own messages, a firing wakes a running client with that message, the creator. -/
theorem signals_rightly (cfg : Config) (load : ℕ) (s : Sys)
    (h : Reach (sysStep cfg) CreatesOwn (.booted load) s) : SignalsRightly s := by
  obtain ⟨hb, hm⟩ := creates_reach cfg load s h
  exact rightly_of_invariants s hb hm (sys_armed cfg load CreatesOwn s h)

section Exact
variable (cfg : Config) (s t : Sys)

theorem updated_step (pid : ℕ) (junk : Junk) (c : Proc) (sec msg : Arg) (hc : s.procs pid = some c)
    (hj : c.job = .invoke (.set sec msg)) (hp : c.phase = .decided .updated)
    (hs : sysStep cfg s (.act pid junk) = some t) :
    t = (s.write cfg c (Invocation.set sec msg).written).moveTo c .updating := by
  simp only [sysStep, hc, Option.bind_some, Proc.nextAction, hp, hj] at hs
  exact (Option.some.inj hs).symm

/-- A client that updates, and whose write creates the timer, prints and is its creator. -/
theorem printed_creator (junk : Junk) (c : Proc) (sec msg : Arg) (i : Fin maxTimers)
    (hj : c.job = .invoke (.set sec msg))
    (hi : s.driver.insertsAt (Invocation.set sec msg).written = some i) :
    ∃ u, sysStep cfg ((s.write cfg c (Invocation.set sec msg).written).moveTo c .updating)
      (.act c.task.pid junk) = some u ∧ ¬ SignalsRightly u := by
  let t := (s.write cfg c (Invocation.set sec msg).written).moveTo c .updating
  let b : Proc := { c with phase := .updating }
  have hb : t.procs c.task.pid = some b := Function.update_self _ _ _
  refine ⟨{ t with printed := c.uid :: t.printed }.moveTo b .finishing, ?_, fun h => ?_⟩
  · change sysStep cfg t (.act c.task.pid junk) = _
    simp [sysStep, hb, b, Proc.nextAction, hj, setSteps, Sys.perform]
  · have hcreators : t.creators = c.uid :: s.creators := (Sys.write_creator cfg s c _ i hi).2
    apply h.updated c.uid List.mem_cons_self
    change c.uid ∈ t.creators
    rw [hcreators]
    exact List.mem_cons_self

/-- A timer that carries another message than its client's fires for that client. -/
theorem misread_message (harmed : ActiveArmed s.driver) (c : Proc) (sec msg : Arg)
    (i : Fin maxTimers) (hj : c.job = .invoke (.set sec msg))
    (hi : s.driver.insertsAt (Invocation.set sec msg).written = some i)
    (hmsg : parseMsg (pad 150 (Invocation.set sec msg).written.bytes) ≠ msg.text) :
    ∃ ticks u, sysStep cfg ((s.write cfg c (Invocation.set sec msg).written).moveTo c .written)
      (.tick ticks) = some u ∧ ¬ SignalsRightly u := by
  let t := (s.write cfg c (Invocation.set sec msg).written).moveTo c .written
  let u : Sys := { t with now := t.now + (t.driver.timers i).timer.due }
  have hstored : (t.driver.timers i).ownerPid = c.task.pid ∧
      (t.driver.timers i).timer.pending = true ∧
      (t.driver.timers i).msg = parseMsg (pad 150 (Invocation.set sec msg).written.bytes) := by
    obtain ⟨howner, hp, hm, -⟩ := fillTimer_stored cfg s.now c.task i _ _ _
      (write_fills cfg s.now c.task s.driver _ i hi)
    exact ⟨howner, hp, hm⟩
  have harmed' : ActiveArmed t.driver := activeArmed_write cfg s.now c.task s.driver _ harmed
  have hexpire := expire_eq t.driver i ((harmed' i).2 hstored.2.1)
  refine ⟨(t.driver.timers i).timer.due, u, rfl, fun h => ?_⟩
  have hx : (u.driver.timers i).timer.Expired u.now := ⟨hstored.2.1, Nat.le_add_left _ _⟩
  obtain ⟨b, sec', msg', hb, -, hjb, htext⟩ := h.fired i _ hx hexpire
  -- the signalled process is the writer, whose argument the message is not
  have hself : u.procs (t.driver.timers i).ownerPid = some { c with phase := .written } := by
    rw [hstored.1]
    exact Function.update_self _ _ _
  rw [hself] at hb
  obtain rfl := Option.some.inj hb
  change c.job = _ at hjb
  rw [hj] at hjb
  injection hjb with hinv
  injection hinv with _ hmm
  apply hmsg
  calc
    _ = (t.driver.timers i).msg := hstored.2.2.symm
    _ = msg'.text := htext.symm
    _ = msg.text := by rw [hmm]

/-- A step of `-s`, `-l` or `-m` that misses the condition leads to a violation in one more step. -/
theorem stranger_signalled (load : ℕ) (e : SysEvent)
    (h : Reach (sysStep cfg) CreatesOwn (.booted load) s) (hs : sysStep cfg s e = some t)
    (hn : NoRemove s e) (hg : ¬ CreatesOwn s e) :
    ∃ e' u, NoRemove t e' ∧ sysStep cfg t e' = some u ∧ ¬ SignalsRightly u := by
  have hok := sys_clients cfg load CreatesOwn s h
  have harmed := sys_armed cfg load CreatesOwn s h
  cases e with
  | act pid junk =>
    simp only [CreatesOwn, not_forall] at hg
    obtain ⟨c, sec, msg, hc, hj, hins, hbad⟩ := hg
    obtain rfl := (hok pid c hc).pid
    obtain ⟨i, hi⟩ := Option.ne_none_iff_exists'.mp hins
    by_cases hp : c.phase = .decided .updated
    · obtain rfl := updated_step cfg s t _ junk c sec msg hc hj hp hs
      obtain ⟨u, hu, hviolated⟩ := printed_creator cfg s junk c sec msg i hj hi
      exact ⟨.act c.task.pid junk, u, trivial, hu, hviolated⟩
    · have hcreated : c.phase = .decided .created ∧
          parseMsg (pad 150 (Invocation.set sec msg).written.bytes) ≠ msg.text := by
        by_contra hno
        exact hbad ⟨hp, fun hc' => by_contra fun hne => hno ⟨hc', hne⟩⟩
      obtain rfl := created_step cfg s t _ junk c _ hc hj hcreated.1 hs
      obtain ⟨ticks, u, hu, hviolated⟩ :=
        misread_message cfg s harmed c sec msg i hj hi hcreated.2
      exact ⟨.tick ticks, u, trivial, hu, hviolated⟩
  | tick ticks => exact absurd trivial hg
  | start task pgrp job => exact absurd hn hg
  | deliver pid => exact absurd trivial hg
  | fire k => exact absurd trivial hg

end Exact

/-- Decides the condition on one step. -/
def createsOwnCheck (s : Sys) : SysEvent → Bool
  | .act pid _ =>
    match s.procs pid with
    | some c =>
      match c.job with
      | .invoke (.set sec msg) => s.driver.insertsAt (Invocation.set sec msg).written = none ∨
          c.phase ≠ .decided .updated ∧
            parseMsg (pad 150 (Invocation.set sec msg).written.bytes) = msg.text
      | _ => true
    | none => true
  | .start _ _ (.invoke (.remove _ _)) => false
  | _ => true

theorem createsOwn_of_check (s : Sys) (e : SysEvent) (h : createsOwnCheck s e = true) :
    CreatesOwn s e := by
  cases e with
  | act pid junk =>
    intro c sec msg hc hj hins
    simp only [createsOwnCheck, hc, hj, decide_eq_true_eq] at h
    rcases h with hnone | ⟨hp, hmsg⟩
    · exact absurd hnone hins
    · exact ⟨hp, fun _ => hmsg⟩
  | start task pgrp job =>
    intro second third hjob
    subst hjob
    cases h
  | tick ticks => trivial
  | deliver pid => trivial
  | fire k => trivial

def noRemoveCheck (_ : Sys) : SysEvent → Bool
  | .start _ _ (.invoke (.remove _ _)) => false
  | _ => true

theorem noRemove_of_check (s : Sys) (e : SysEvent) (h : noRemoveCheck s e = true) : NoRemove s e := by
  cases e with
  | start task pgrp job =>
    intro second third hjob
    subst hjob
    cases h
  | _ => trivial

/-- `ktimer -s 1 bob` up to its `pause()`, and `ktimer -s 5 bob` up to its decision. -/
def twoBobs : List SysEvent :=
  bobWrites ++ [sampleAct 7,
    sampleStart 8 (by decide) (.set (sampleArg "5" (by decide)) bob),
    sampleAct 8, sampleAct 8, sampleAct 8]

theorem signals_rightly_run : ∃ s, Reach (sysStep sampleConfig) CreatesOwn (.booted 0) s ∧
    (s.driver.timers 0).timer.Expired s.now ∧ s.printed = [1] ∧ SignalsRightly s := by
  obtain ⟨s, hs, hp⟩ := exists_reach_of_run (sysStep sampleConfig) (.booted 0) createsOwn_of_check
    (twoBobs ++ [sampleAct 8, sampleAct 8, sampleAct 8, .tick 500])
    (fun s => (s.driver.timers 0).timer.Expired s.now ∧ s.printed = [1]) (by decide +kernel)
  obtain ⟨hx, hprinted⟩ := of_decide_eq_true hp
  exact ⟨s, hs, hx, hprinted, signals_rightly sampleConfig 0 s hs⟩

/-- The timer fires between the decision to update and the write: the write creates a timer
for a client that prints and ends. -/
theorem signals_nobody : ¬ ∀ (cfg : Config) (load : ℕ) (s : Sys),
    Reach (sysStep cfg) NoRemove (.booted load) s → SignalsRightly s := by
  intro hall
  obtain ⟨s, hs, hp⟩ := exists_reach_of_run (sysStep sampleConfig) (.booted 0) noRemove_of_check
    (twoBobs ++ [.tick 100, .fire 0, sampleAct 8, sampleAct 8, sampleAct 8, .tick 500])
    (fun s => (s.driver.timers 0).timer.Expired s.now ∧
      (s.driver.expire 0).any fun r => (s.procs r.2).isNone) (by decide +kernel)
  obtain ⟨hx, hgone⟩ := of_decide_eq_true hp
  obtain ⟨r, hr, hnone⟩ := (Option.any_eq_true _ _).mp hgone
  obtain ⟨c, -, -, hc, -⟩ := (hall sampleConfig 0 s hs).fired 0 r hx hr
  rw [hc] at hnone
  cases hnone

end DevKota.Lab3
