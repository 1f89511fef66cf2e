import DevKota.Lab2Failure

/-! The time arithmetic of the lab2 driver: when its timers are armed to expire and which
remaining seconds it prints, against exact integers on the unbounded clock. -/
namespace DevKota.Lab2
open CString Kernel Runs WrappedClock

/-- The instant and the seconds with which each slot of each table was last armed. -/
abbrev Armings := ℕ × ℕ → ℕ × ℤ

/-- The slot that a write arms, if it arms one, and the seconds of the command. -/
def Driver.armsAt (d : Driver) (buf : UserBuf) (alloc : Bool) : Option ((ℕ × ℕ) × ℤ) :=
  match requestOf buf with
  | .set seconds m =>
    if alloc then
      (d.findAvailableTimer m).bind fun index => d.gTimers.bind fun t =>
        if 0 ≤ index then some ((t, index.toNat), seconds) else none
    else none
  | _ => none

def recordArming (s : State) (a : Armings) : Event → Armings
  | .write buf alloc =>
    match s.driver.armsAt buf alloc with
    | some (place, seconds) => Function.update a place (s.now, seconds)
    | none => a
  | _ => a

/-- The driver with a record of the last armings. -/
def armedStep (cfg : Config) (s : State × Armings) (e : Event) : Option (State × Armings) :=
  (step cfg s.1 e).map fun t => (t, recordArming s.1 s.2 e)

/-- The instant of an arming plus its seconds, in ticks. -/
def exactDeadline (cfg : Config) (a : ℕ × ℤ) : ℤ := a.1 + a.2*cfg.HZ

/-- The whole seconds left at an instant, and zero from the deadline on. -/
def exactRemaining (cfg : Config) (now : ℕ) (due : ℤ) : ℤ := max 0 ((due-now)/cfg.HZ)

/-- The timer is armed for the exact deadline, which is at most half a turn of the counter
ahead, and the listing prints the exact number. -/
structure TimedExactly (cfg : Config) (now : ℕ) (s : MsgTimer) (a : ℕ × ℤ) : Prop where
  pending : s.timer.pending = true
  due : (s.timer.due : ℤ) = exactDeadline cfg a
  expires : s.timer.expires = shown 32 (exactDeadline cfg a)
  range : 0 ≤ a.2*cfg.HZ ∧ a.2*cfg.HZ < 2^31
  line (text : List Byte) : Driver.activeLine cfg now s text =
    text ++ ascii " " ++ decimalInt (exactRemaining cfg now (exactDeadline cfg a)) ++ ascii "\n"

/-- A slot as the last `set_timer` left it. -/
structure ArmedFor (cfg : Config) (now : ℕ) (s : MsgTimer) (a : ℕ × ℤ) : Prop where
  pending : s.timer.pending = true
  expires : s.timer.expires = shown 32 (exactDeadline cfg a)
  due : s.timer.due = dueOf a.1 s.timer.expires
  before : a.1 ≤ now

/-- Every slot with a message is. -/
def ArmedExact (cfg : Config) (s : State × Armings) : Prop :=
  ∀ t i x, s.1.driver.slot t i = some x → x.Active → x.message ≠ .null →
    ArmedFor cfg s.1.now x (s.2 (t,i))

section Arithmetic
variable (cfg : Config)

/-- The word that `set_timer` hands to the kernel. -/
theorem shown_deadline (now : ℕ) (seconds : ℤ) :
    jiffies now + BitVec.ofInt 32 seconds * BitVec.ofNat 32 cfg.HZ =
      shown 32 (exactDeadline cfg (now, seconds)) := by
  rw [exactDeadline, shown_add, shown_mul, jiffies_eq, shown_natCast 32 cfg.HZ]
  rfl

/-- The kernel's instant is the exact one when the product is in range, and only then. -/
theorem dueOf_exact_iff (now : ℕ) (d : ℤ) :
    (dueOf now (shown 32 (now + d)) : ℤ) = now + d ↔ 0 ≤ d ∧ d < 2^31 := by
  have hdiff := shown_sub_toNat 32 (now + d) now
  rw [add_sub_cancel_left, ← jiffies_eq] at hdiff
  unfold dueOf
  split_ifs with h
  · push_cast
    omega
  · omega

/-- The quotient that is printed never turns negative as an `int`. -/
theorem remaining_eq (hz : 2 ≤ cfg.HZ) (now : ℕ) (s : MsgTimer) (due : ℤ)
    (he : s.timer.expires = shown 32 due) :
    Driver.remaining cfg now s = (due-now) % 2^32 / cfg.HZ := by
  have hdiff := shown_sub_toNat 32 due now
  rw [← jiffies_eq, ← he] at hdiff
  have hlt := (s.timer.expires - jiffies now).isLt
  have hquot : (s.timer.expires - jiffies now).toNat / cfg.HZ < 2^31 := by
    apply Nat.div_lt_of_lt_mul
    omega
  unfold Driver.remaining
  rw [BitVec.toInt_eq_toNat_of_lt, BitVec.toNat_ofNat, Nat.mod_eq_of_lt (by omega),
    max_eq_left (Int.natCast_nonneg _), Int.natCast_ediv, hdiff]
  rw [BitVec.toNat_ofNat, Nat.mod_eq_of_lt (by omega)]
  omega

end Arithmetic

section Report
variable (cfg : Config) (now : ℕ)

/-- What is printed for a slot depends on the number alone. -/
theorem line_iff (s : MsgTimer) (n : ℤ) (hn : -(2^31) ≤ n ∧ n < 2^31)
    (hr : -(2^31) ≤ Driver.remaining cfg now s ∧ Driver.remaining cfg now s < 2^31) :
    (∀ text, Driver.activeLine cfg now s text = text ++ ascii " " ++ decimalInt n ++ ascii "\n") ↔
      Driver.remaining cfg now s = n := by
  constructor
  · intro h
    have hline := h []
    unfold Driver.activeLine at hline
    have hnum := List.append_cancel_left (List.append_cancel_right hline)
    -- numbers that print alike are read back alike
    have hread := congrArg kstrtol hnum
    rw [kstrtol_decimalInt _ hr, kstrtol_decimalInt _ hn] at hread
    exact Except.ok.inj hread
  · intro h text
    rw [Driver.activeLine, h]

theorem quotient_lt (hz : 2 ≤ cfg.HZ) (x : ℤ) (hx : x < 2^32) : x/cfg.HZ < 2^31 := by
  apply Int.ediv_lt_of_lt_mul (by omega)
  omega

/-- An armed slot is timed exactly when its seconds are in range, and the deadline is ahead or
the wrapped time behind it is below one second. -/
theorem timedExactly_iff (hz : 2 ≤ cfg.HZ) (s : MsgTimer) (a : ℕ × ℤ) (h : ArmedFor cfg now s a) :
    TimedExactly cfg now s a ↔ (0 ≤ a.2*cfg.HZ ∧ a.2*cfg.HZ < 2^31) ∧
      (0 ≤ exactDeadline cfg a - now ∨ (exactDeadline cfg a - now) % 2^32 < cfg.HZ) := by
  have hz1000 := cfg.HZ_le
  have hbefore := h.before
  have hrem := remaining_eq cfg hz now s _ h.expires
  have hdue : (s.timer.due : ℤ) = exactDeadline cfg a ↔ 0 ≤ a.2*cfg.HZ ∧ a.2*cfg.HZ < 2^31 := by
    rw [h.due, h.expires]
    exact dueOf_exact_iff a.1 _
  have hiff (hr : 0 ≤ a.2*cfg.HZ ∧ a.2*cfg.HZ < 2^31) :
      (∀ text, Driver.activeLine cfg now s text = text ++ ascii " " ++
        decimalInt (exactRemaining cfg now (exactDeadline cfg a)) ++ ascii "\n") ↔
      (0 ≤ exactDeadline cfg a - now ∨ (exactDeadline cfg a - now) % 2^32 < cfg.HZ) := by
    have hδ : exactDeadline cfg a - now < 2^32 := by
      unfold exactDeadline
      omega
    rw [← wrapped_ediv_iff (by omega) (by omega) hδ, ← hrem]
    have hmod := Int.emod_nonneg (exactDeadline cfg a - now) (by decide : (2^32:ℤ) ≠ 0)
    have hlt := Int.emod_lt_of_pos (exactDeadline cfg a - now) (by decide : (0:ℤ) < 2^32)
    apply line_iff
    · have hx : (exactDeadline cfg a - now)/cfg.HZ < 2^31 :=
        quotient_lt cfg hz _ (by omega)
      have h0 : 0 ≤ exactRemaining cfg now (exactDeadline cfg a) := le_max_left _ _
      have hle : exactRemaining cfg now (exactDeadline cfg a) < 2^31 := max_lt (by decide) hx
      omega
    · have hx := quotient_lt cfg hz _ hlt
      have h0 := Int.ediv_nonneg hmod (Int.natCast_nonneg cfg.HZ)
      rw [hrem]
      omega
  constructor
  · intro ht
    exact ⟨ht.range, (hiff ht.range).mp ht.line⟩
  · intro hw
    exact ⟨h.pending, hdue.mpr hw.1, h.expires, hw.1, (hiff hw.1).mpr hw.2⟩

end Report

section Armed
variable (cfg : Config)

theorem armedFor_later (now now' : ℕ) (s : MsgTimer) (a : ℕ × ℤ) (h : ArmedFor cfg now s a)
    (hle : now ≤ now') : ArmedFor cfg now' s a :=
  ⟨h.pending, h.expires, h.due, h.before.trans hle⟩

theorem armedFor_filled (now id : ℕ) (s : MsgTimer) (seconds : ℤ) (m : List Byte) :
    ArmedFor cfg now (s.filled cfg now id seconds m) (now, seconds) :=
  ⟨rfl, shown_deadline cfg now seconds, rfl, le_refl _⟩

/-- Only a set command whose allocation succeeds arms a slot: the one it found. -/
theorem armsAt_set (d : Driver) (buf : UserBuf) (seconds : ℤ) (m : List Byte) (t i : ℕ)
    (s : MsgTimer) (hreq : requestOf buf = .set seconds m)
    (hf : d.findAvailableTimer m = some (i:ℤ)) (hc : Chosen d t i s m) :
    d.armsAt buf true = some ((t,i), seconds) := by
  simp [Driver.armsAt, hreq, hf, hc.table]

theorem armsAt_full (d : Driver) (buf : UserBuf) (alloc : Bool) (seconds : ℤ) (m : List Byte)
    (hreq : requestOf buf = .set seconds m) (hf : d.findAvailableTimer m = some (-ENOMEM)) :
    d.armsAt buf alloc = none := by
  cases d.gTimers <;> simp [Driver.armsAt, hreq, hf, ENOMEM]

theorem armedExact_write (s : State) (a : Armings) (h : ArmedExact cfg (s,a)) (buf : UserBuf)
    (alloc : Bool) (d : Driver) (r : ℤ)
    (he : Effect cfg s.now s.driver alloc (requestOf buf) d r) :
    ArmedExact cfg ({ s with driver := d }, recordArming s a (.write buf alloc)) := by
  generalize hreq : requestOf buf = req at he
  simp only [recordArming]
  cases he with
  | malformed e =>
    simp only [Driver.armsAt, hreq]
    exact h
  | noTable n ha hsize =>
    simp only [Driver.armsAt, hreq]
    exact h
  | newTable n k ha hk hsize =>
    simp only [Driver.armsAt, hreq]
    intro t i x hx hact hm
    rcases withTable_slot s.driver n k t i x hx with ⟨-, -, rfl⟩ | ⟨-, hold⟩
    · exact absurd hact freshSlot_idle.1
    · exact h t i x hold hact hm
  | full seconds m hf =>
    rw [armsAt_full s.driver buf alloc seconds m hreq hf]
    exact h
  | unfilled seconds m t i u ha hf hc =>
    subst ha
    simp only [Driver.armsAt, hreq]
    intro t' i' x hx hact hm
    rcases stored_cases s.driver _ t i _ (stores_unfilled s.driver t i u m hc).slot t' i' x hx
      with ⟨-, rfl⟩ | ⟨-, hold⟩
    · -- this slot has lost its message
      exact absurd rfl hm
    · exact h t' i' x hold hact hm
  | filled seconds m t i u r ha hf hc hr =>
    subst ha
    rw [armsAt_set s.driver buf seconds m t i u hreq hf hc]
    intro t' i' x hx hact hm
    rcases stored_cases s.driver _ t i _ (stores_filled cfg s.now s.driver t i u m hc seconds).slot
      t' i' x hx with ⟨⟨rfl, rfl⟩, rfl⟩ | ⟨hti, hold⟩
    · simp only [Function.update_self]
      exact armedFor_filled cfg s.now _ u seconds m
    · have hne : (t',i') ≠ (t,i) := fun heq => hti (Prod.mk.inj heq)
      simp only [Function.update_of_ne hne]
      exact h t' i' x hold hact hm

theorem armedExact_step (s t : State × Armings) (e : Event) (h : ArmedExact cfg s)
    (hs : armedStep cfg s e = some t) : ArmedExact cfg t := by
  obtain ⟨u, hu, rfl⟩ := Option.map_eq_some_iff.mp hs
  cases e with
  | tick ticks =>
    obtain rfl := Option.some.inj hu
    intro t i x hx hact hm
    exact armedFor_later cfg _ _ x _ (h t i x hx hact hm) (Nat.le_add_right _ _)
  | write buf alloc =>
    obtain ⟨q, hq, rfl⟩ := Option.map_eq_some_iff.mp hu
    rw [timerWrite_eq] at hq
    obtain ⟨p, hp, rfl⟩ := Option.map_eq_some_iff.mp hq
    exact armedExact_write cfg s.1 s.2 h buf alloc _ p.2 (perform_effect cfg _ _ p.1 alloc _ p.2 hp)
  | fire k j =>
    simp only [step] at hu
    split_ifs at hu
    obtain ⟨d, hd, rfl⟩ := Option.map_eq_some_iff.mp hu
    obtain ⟨x0, -, -, hslots, -⟩ := expire_cases s.1.driver d k j hd
    intro t i x hx hact hm
    rw [hslots] at hx
    split_ifs at hx
    · -- the slot that fired is free
      obtain rfl := Option.some.inj hx
      cases hact
    · exact h t i x hx hact hm

theorem armedExact_reach (load : ℕ) (loadAlloc : Bool) (t : State × Armings)
    (h : Reach (armedStep cfg) (fun _ _ => True) (loaded load loadAlloc, fun _ => (0,0)) t) :
    ArmedExact cfg t := by
  refine reach_invariant (fun s e t hi _ hs => armedExact_step cfg s t e hi hs) h ?_
  -- no slot is in use after the load
  intro t i x hx hact
  exact absurd hact (init_idle loadAlloc t i x hx)

end Armed

/-- In every reachable state a timer with its message was armed for exactly its seconds and is
reported with exactly what is left of them if and only if the seconds are not negative and give
less than half a turn of the counter, and the deadline has not passed or the wrapped time behind
it is below one second. -/
theorem timing_exact_iff (cfg : Config) (hz : 100 ≤ cfg.HZ) (load : ℕ) (loadAlloc : Bool)
    (s : State) (a : Armings)
    (h : Reach (armedStep cfg) (fun _ _ => True) (loaded load loadAlloc, fun _ => (0,0)) (s,a))
    (t i : ℕ) (x : MsgTimer) (hx : s.driver.slot t i = some x) (hact : x.Active)
    (hm : x.message ≠ .null) :
    TimedExactly cfg s.now x (a (t,i)) ↔
      (0 ≤ (a (t,i)).2 ∧ (a (t,i)).2 * cfg.HZ < 2^31) ∧
        (0 ≤ exactDeadline cfg (a (t,i)) - s.now ∨
          (exactDeadline cfg (a (t,i)) - s.now) % 2^32 < cfg.HZ) := by
  have hpos : (0:ℤ) < cfg.HZ := by exact_mod_cast cfg.HZ_pos
  rw [timedExactly_iff cfg s.now (by omega) x _
    (armedExact_reach cfg load loadAlloc (s,a) h t i x hx hact hm), mul_nonneg_iff_of_pos_right hpos]

set_option maxRecDepth 8192 in
/-- Armed with 5 seconds shortly before the counter wraps, and read 500 ticks later. -/
theorem timing_exact_iff_run : ∃ s a x,
    Reach (armedStep sampleConfig) (fun _ _ => True) (loaded (2^32 - 10) true, fun _ => (0,0))
        (s,a) ∧ s.driver.slot 0 0 = some x ∧
      exactRemaining sampleConfig s.now (exactDeadline sampleConfig (a (0,0))) = 3 ∧
      TimedExactly sampleConfig s.now x (a (0,0)) := by
  obtain ⟨q, hq, hp⟩ := exists_reach_of_free_run (armedStep sampleConfig)
    (loaded (2^32 - 10) true, fun _ => (0,0)) [sampleWrite "5 billy\n" true, .tick 500]
    (fun q => (q.1.driver.slot 0 0).any (fun x => x.Active ∧ x.message ≠ .null) ∧
      (q.2 (0,0)).2 = 5 ∧ 0 ≤ exactDeadline sampleConfig (q.2 (0,0)) - q.1.now ∧
      exactRemaining sampleConfig q.1.now (exactDeadline sampleConfig (q.2 (0,0))) = 3)
    (by decide +kernel)
  obtain ⟨hslot, hsec, hahead, hthree⟩ := of_decide_eq_true hp
  obtain ⟨x, hx, hx'⟩ := (Option.any_eq_true _ _).mp hslot
  obtain ⟨hact, hm⟩ := of_decide_eq_true hx'
  have hiff := timing_exact_iff sampleConfig (by decide) _ true q.1 q.2 hq 0 0 x hx hact hm
  rw [hsec] at hiff
  exact ⟨q.1, q.2, x, hq, hx, hthree, hiff.mpr ⟨by decide, Or.inl hahead⟩⟩

set_option maxRecDepth 8192 in
/-- A timer of one second, listed one tick after its deadline while its callback is still to
run. -/
theorem overdue_wraps : ¬ ∀ (cfg : Config) (load : ℕ) (loadAlloc : Bool) (s : State)
    (a : Armings), 100 ≤ cfg.HZ →
    Reach (armedStep cfg) (fun _ _ => True) (loaded load loadAlloc, fun _ => (0,0)) (s,a) →
      ∀ t i x, s.driver.slot t i = some x → x.Active → x.message ≠ .null →
        TimedExactly cfg s.now x (a (t,i)) := by
  intro hall
  obtain ⟨q, hq, hp⟩ := exists_reach_of_free_run (armedStep sampleConfig)
    (loaded 0 true, fun _ => (0,0)) [sampleWrite "1 billy\n" true, .tick 251]
    (fun q => (q.1.driver.slot 0 0).any (fun x => x.Active ∧ x.message ≠ .null ∧
        Driver.activeLine sampleConfig q.1.now x (ascii "billy") = ascii "billy 17179869\n") ∧
      exactRemaining sampleConfig q.1.now (exactDeadline sampleConfig (q.2 (0,0))) = 0)
    (by decide +kernel)
  obtain ⟨hslot, hzero⟩ := of_decide_eq_true hp
  obtain ⟨x, hx, hx'⟩ := (Option.any_eq_true _ _).mp hslot
  obtain ⟨hact, hm, hprinted⟩ := of_decide_eq_true hx'
  have hline := (hall _ _ _ q.1 q.2 (by decide) hq 0 0 x hx hact hm).line (ascii "billy")
  rw [hprinted, hzero] at hline
  exact absurd hline (by decide)

end DevKota.Lab2
