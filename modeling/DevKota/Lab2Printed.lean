import DevKota.Lab2Lost
import DevKota.Lab2Table
import Mathlib.Data.Multiset.Basic

/-! What the callbacks of the lab2 driver print, over runs with resizes and failing allocations. -/
namespace DevKota.Lab2
open CString Kernel Runs Ledgers

/-- What `printk` shows for a NULL message. -/
def nullText : List Byte := ascii "(null)"

/-- What the callback of a slot prints. -/
def MsgTimer.toPrint (s : MsgTimer) : List Byte :=
  match s.message with
  | .null => nullText
  | p => p.text

/-- What is still to be printed for a slot. -/
def MsgTimer.waiting (s : MsgTimer) : Multiset (List Byte) :=
  if s.timer.pending = true then {s.toPrint} else 0

/-- What is still to be printed for all tables, the ones that were replaced included. -/
def Driver.waiting (d : Driver) : Multiset (List Byte) :=
  (d.tables.map fun tb => (tb.slots.map MsgTimer.waiting).sum).sum

/-- The slot that a message would go to. -/
def Driver.chosen (d : Driver) (message : List Byte) : Option MsgTimer :=
  (d.findAvailableTimer message).bind fun index =>
    if 0 ≤ index then d.gTimers.bind fun t => d.slot t index.toNat else none

/-- The message of a request that arms a timer which was not armed. -/
def armedBy (d : Driver) (alloc : Bool) : Request → Multiset (List Byte)
  | .set _ message =>
    if alloc ∧ (d.chosen message).any (fun s => !s.timer.pending) then {message} else 0
  | _ => 0

/-- The message of an armed timer whose update is refused its block. -/
def voidedBy (d : Driver) (alloc : Bool) : Request → Multiset (List Byte)
  | .set _ message =>
    if ¬ alloc ∧ (d.chosen message).any (fun s => s.timer.pending) then {message} else 0
  | _ => 0

def armed (s : State) : Event → Multiset (List Byte)
  | .write buf alloc => armedBy s.driver alloc (requestOf buf)
  | _ => 0

def voided (s : State) : Event → Multiset (List Byte)
  | .write buf alloc => voidedBy s.driver alloc (requestOf buf)
  | _ => 0

/-- Sum along a run. -/
def allOf (cfg : Config) (f : State → Event → Multiset (List Byte)) (s : State) :
    List Event → Multiset (List Byte)
  | [] => 0
  | e :: es => f s e + ((step cfg s e).map fun t => allOf cfg f t es).getD 0

/-- Everything that was printed or will be. -/
def Driver.prints (d : Driver) : Multiset (List Byte) := (d.log : Multiset (List Byte)) + d.waiting

section Stores
variable (d d' : Driver)

/-- One slot is stored: what it had waiting goes, what it has now comes. -/
theorem waiting_setSlot (t i : ℕ) (s0 s : MsgTimer) (h : d.slot t i = some s0) :
    (d.setSlot t i s).waiting + s0.waiting = d.waiting + s.waiting := by
  obtain ⟨tb, htb, hslot⟩ := Option.bind_eq_some_iff.mp h
  have htables : (d.setSlot t i s).tables = d.tables.set t { tb with slots := tb.slots.set i s } := by
    rw [Driver.setSlot, List.modify_eq_set_getElem?, htb]
    rfl
  have hslots := sum_map_set MsgTimer.waiting tb.slots i s0 s hslot
  have hall := sum_map_set (fun tb : Table => (tb.slots.map MsgTimer.waiting).sum) d.tables t tb
    { tb with slots := tb.slots.set i s } htb
  have hset : (d.setSlot t i s).waiting =
      ((d.tables.set t { tb with slots := tb.slots.set i s }).map
        fun tb => (tb.slots.map MsgTimer.waiting).sum).sum := by rw [Driver.waiting, htables]
  rw [hset]
  apply add_right_cancel (b := (tb.slots.map MsgTimer.waiting).sum)
  calc _ = _ + (tb.slots.map MsgTimer.waiting).sum + s0.waiting := add_right_comm _ _ _
    _ = d.waiting + ((tb.slots.set i s).map MsgTimer.waiting).sum + s0.waiting := by rw [hall]; rfl
    _ = d.waiting + ((tb.slots.map MsgTimer.waiting).sum + s.waiting) := by rw [add_assoc, hslots]
    _ = _ := by rw [add_comm (tb.slots.map MsgTimer.waiting).sum, add_assoc]

theorem stored_prints (t i : ℕ) (s0 s : MsgTimer) (h : d.slot t i = some s0)
    (htables : d'.tables = (d.setSlot t i s).tables) (hlog : d'.log = d.log) :
    d'.prints + s0.waiting = d.prints + s.waiting := by
  have hwaiting : d'.waiting = (d.setSlot t i s).waiting := by
    rw [Driver.waiting, Driver.waiting, htables]
  rw [Driver.prints, Driver.prints, hlog, hwaiting, add_assoc, add_assoc,
    waiting_setSlot d t i s0 s h]

theorem waiting_idle (s : MsgTimer) (h : s.timer.pending = false) : s.waiting = 0 := by
  simp [MsgTimer.waiting, h]

theorem waiting_pending (s : MsgTimer) (h : s.timer.pending = true) : s.waiting = {s.toPrint} :=
  if_pos h

theorem printed_toPrint (s : MsgTimer) (text : List Byte) (h : d.printed s = some text) :
    s.toPrint = text := by
  unfold Driver.printed at h
  unfold MsgTimer.toPrint
  cases hm : s.message with
  | null =>
    rw [hm] at h
    exact Option.some.inj h
  | junk =>
    rw [hm] at h
    exact deref_text d .junk text h
  | block id x =>
    rw [hm] at h
    exact deref_text d (.block id x) text h

/-- The slot is stored twice: by the kernel, which detaches it, and by the callback. -/
theorem expire_tables (t i : ℕ) (s : MsgTimer) (hs : d.slot t i = some s)
    (he : d.expire t i = some d') :
    d'.tables = ((d.setSlot t i { s with timer := s.timer.delTimer }).setSlot t i s.fired).tables := by
  have hs' := slot_setSlot_self d t i s { s with timer := s.timer.delTimer } hs
  simp only [Driver.expire, hs, Option.bind_some] at he
  split at he
  · simp only [Driver.timerCb, hs', Option.bind_some] at he
    obtain ⟨text, -, he⟩ := Option.bind_eq_some_iff.mp he
    exact (kfree_cases _ _ _ he).1
  · cases he

/-- The callback moves its message from what is waiting to the log. -/
theorem expire_prints (t i : ℕ) (s : MsgTimer) (h : Inv d) (hs : d.slot t i = some s)
    (hp : s.timer.pending = true) (he : d.expire t i = some d') : d'.prints = d.prints := by
  obtain ⟨d1, text, hd1, htext, hlog⟩ := expire_defined d h t i s hs hp
  rw [he] at hd1
  obtain rfl := Option.some.inj hd1
  have hfirst := waiting_setSlot d t i s { s with timer := s.timer.delTimer } hs
  have hsecond := waiting_setSlot _ t i _ s.fired
    (slot_setSlot_self d t i s { s with timer := s.timer.delTimer } hs)
  rw [waiting_pending s hp, printed_toPrint d s text htext, waiting_idle _ rfl, add_zero] at hfirst
  rw [waiting_idle _ rfl, waiting_idle s.fired rfl, add_zero, add_zero] at hsecond
  have hwaiting : d'.waiting + {text} = d.waiting := by
    rw [← hfirst, ← hsecond, Driver.waiting, expire_tables d d' t i s hs he]
    rfl
  calc d'.prints = (d.log : Multiset (List Byte)) + {text} + d'.waiting := by
        rw [Driver.prints, hlog]
        rfl
    _ = d.prints := by
        rw [Driver.prints, ← hwaiting, add_assoc]
        congr 1
        exact add_comm _ _

end Stores

section Steps
variable (cfg : Config) (now : ℕ) (d d' : Driver)

theorem chosen_eq (m : List Byte) (t i : ℕ) (s : MsgTimer)
    (hf : d.findAvailableTimer m = some (i:ℤ)) (hc : Chosen d t i s m) : d.chosen m = some s := by
  rw [Driver.chosen, hf, Option.bind_some, if_pos (Int.natCast_nonneg i), hc.table, Option.bind_some,
    Int.toNat_natCast, hc.slot]

/-- An armed timer that a message goes to prints this message. -/
theorem chosen_toPrint (h : Inv d) (m : List Byte) (t i : ℕ) (s : MsgTimer) (hc : Chosen d t i s m)
    (hp : s.timer.pending = true) : s.toPrint = m := by
  have ha := h.armed t i s hc.slot hp
  rcases hc.choice with ⟨-, hread⟩ | ⟨hidle, -⟩
  · have htext := deref_text d s.message m hread
    unfold MsgTimer.toPrint
    split
    · rename_i hnull
      rw [hnull] at hread
      cases hread
    · exact htext
  · exact absurd ha hidle

theorem armedBy_set (alloc : Bool) (seconds : ℤ) (m : List Byte) (s : MsgTimer)
    (h : d.chosen m = some s) :
    armedBy d alloc (.set seconds m) =
      if alloc = true ∧ s.timer.pending = false then {m} else 0 := by
  simp [armedBy, h]

theorem voidedBy_set (alloc : Bool) (seconds : ℤ) (m : List Byte) (s : MsgTimer)
    (h : d.chosen m = some s) :
    voidedBy d alloc (.set seconds m) =
      if ¬ alloc = true ∧ s.timer.pending = true then {m} else 0 := by
  simp [voidedBy, h]

theorem waiting_withTable (n : ℤ) (k : ℕ) : (d.withTable n k).waiting = d.waiting := by
  have hfresh : ((List.replicate k freshSlot).map MsgTimer.waiting).sum = 0 := by
    rw [List.map_replicate, List.sum_replicate, waiting_idle _ freshSlot_idle.2, smul_zero]
  simp only [Driver.waiting, Driver.withTable, List.map_append, List.sum_append, List.map_cons,
    List.map_nil, List.sum_singleton, hfresh, add_zero]

theorem effect_prints (alloc : Bool) (req : Request) (r : ℤ) (h : Inv d)
    (he : Effect cfg now d alloc req d' r) :
    d'.prints + voidedBy d alloc req =
      d.prints + armedBy d alloc req + (voidedBy d alloc req).map fun _ => nullText := by
  cases he with
  | malformed e => simp [armedBy, voidedBy]
  | noTable n ha hsize => simp [armedBy, voidedBy, Driver.prints, Driver.waiting]
  | newTable n k ha hk hsize =>
    have hwait := waiting_withTable d n k
    simp only [armedBy, voidedBy, Driver.prints, hwait, Multiset.map_zero, add_zero]
    rfl
  | full seconds m hf =>
    have hnone : d.chosen m = none := by
      rw [Driver.chosen, hf, Option.bind_some, if_neg (by decide)]
    simp [armedBy, voidedBy, hnone]
  | unfilled seconds m t i s ha hf hc =>
    have hstore := stored_prints d (d.setSlot t i s.unfilled) t i s s.unfilled hc.slot rfl rfl
    rw [armedBy_set d alloc seconds m s (chosen_eq d m t i s hf hc), if_neg (by simp [ha]), add_zero,
      voidedBy_set d alloc seconds m s (chosen_eq d m t i s hf hc)]
    by_cases hp : s.timer.pending = true
    · -- the timer stays armed, and prints NULL instead of the message
      rw [waiting_pending s hp, waiting_pending s.unfilled hp,
        chosen_toPrint d h m t i s hc hp] at hstore
      rw [if_pos ⟨by simp [ha], hp⟩, Multiset.map_singleton]
      exact hstore
    · rw [Bool.not_eq_true] at hp
      rw [waiting_idle s hp, waiting_idle s.unfilled hp, add_zero, add_zero] at hstore
      rw [if_neg (by simp [hp]), Multiset.map_zero, add_zero, add_zero, hstore]
  | filled seconds m t i s r ha hf hc hr =>
    have hstore := stored_prints d { d.setSlot t i (s.filled cfg now d.nextBlock seconds m) with
      nextBlock := d.nextBlock + 1 } t i s _ hc.slot rfl rfl
    rw [waiting_pending (s.filled cfg now d.nextBlock seconds m) rfl] at hstore
    rw [armedBy_set d alloc seconds m s (chosen_eq d m t i s hf hc),
      voidedBy_set d alloc seconds m s (chosen_eq d m t i s hf hc), if_neg (by simp [ha] : ¬ _),
      Multiset.map_zero, add_zero, add_zero]
    by_cases hp : s.timer.pending = true
    · -- an update prints the message that was waiting already
      rw [waiting_pending s hp, chosen_toPrint d h m t i s hc hp] at hstore
      rw [if_neg (by simp [hp]), add_zero]
      exact add_right_cancel hstore
    · rw [Bool.not_eq_true] at hp
      rw [waiting_idle s hp, add_zero] at hstore
      rw [if_pos ⟨ha, hp⟩]
      exact hstore

theorem step_prints (s t : State) (e : Event) (h : Inv s.driver) (hs : step cfg s e = some t) :
    t.driver.prints + voided s e =
      s.driver.prints + armed s e + (voided s e).map fun _ => nullText := by
  rcases step_cases cfg s t e hs with
    ⟨ticks, rfl, heq⟩ | ⟨buf, alloc, r, rfl, he⟩ | ⟨k, i, x, rfl, hx, hexpired, he⟩
  · rw [heq]
    simp [armed, voided]
  · exact effect_prints cfg s.now s.driver t.driver alloc _ r h he
  · rw [expire_prints s.driver t.driver k i x h hx hexpired.1 he]
    simp [armed, voided]

theorem run_prints (s t : State) (es : List Event) (h : Inv s.driver)
    (hr : run (step cfg) (fun _ _ => true) s es = some t) :
    t.driver.prints + allOf cfg voided s es =
      s.driver.prints + allOf cfg armed s es + (allOf cfg voided s es).map fun _ => nullText := by
  -- along the run, by the balance of the first step
  induction es generalizing s with
  | nil =>
    obtain rfl := Option.some.inj hr
    simp [allOf]
  | cons e es ih =>
    obtain ⟨-, u, hu, hrest⟩ := run_cons hr
    have hstep := step_prints cfg s u e h hu
    have hlater := ih u (step_inv cfg s u e h hu) hrest
    have hall (f : State → Event → Multiset (List Byte)) :
        allOf cfg f s (e :: es) = f s e + allOf cfg f u es := by
      rw [allOf, hu]
      rfl
    rw [hall, hall, Multiset.map_add]
    calc t.driver.prints + (voided s e + allOf cfg voided u es)
        = t.driver.prints + allOf cfg voided u es + voided s e := by ac_rfl
      _ = u.driver.prints + voided s e + allOf cfg armed u es +
          (allOf cfg voided u es).map fun _ => nullText := by
        rw [hlater]
        ac_rfl
      _ = _ := by
        rw [hstep]
        ac_rfl

end Steps

/-- A fresh table has nothing to print. -/
theorem fresh_prints (d : Driver) (h : Fresh d) : d.prints = 0 := by
  obtain ⟨n, alloc, r, hcreate⟩ := h
  have he := perform_effect ⟨1, by decide, by decide⟩ 0 _ _ alloc (.resize n) r hcreate
  have hprints := effect_prints _ 0 _ d alloc _ r inv_zeroed he
  have hnone : (⟨0, none, [], 0, [], []⟩ : Driver).prints = 0 := rfl
  rw [hnone] at hprints
  simpa [armedBy, voidedBy] using hprints

/-- In every run, resizes and failing allocations included, each message that armed a timer was
printed exactly once or still waits, only that a timer whose update was refused its block prints
NULL in its place. -/
theorem armed_printed_once (cfg : Config) (now : ℕ) (d : Driver) (hd : Fresh d) (es : List Event)
    (s : State) (h : run (step cfg) (fun _ _ => true) ⟨now, d⟩ es = some s) :
    (s.driver.log : Multiset (List Byte)) + s.driver.waiting + allOf cfg voided ⟨now, d⟩ es =
      allOf cfg armed ⟨now, d⟩ es + (allOf cfg voided ⟨now, d⟩ es).map fun _ => nullText := by
  have hinv := (fresh_accounted d hd).1.inv
  have hrun := run_prints cfg ⟨now, d⟩ s es hinv h
  rw [show (⟨now, d⟩ : State).driver.prints = 0 from fresh_prints d hd, zero_add] at hrun
  exact hrun

/-- A timer, a resize, a second timer whose update finds no memory, and both fire. -/
def sampleVoided : List Event :=
  [sampleWrite "4 elm\n" true, sampleWrite "^COUNT=2" true, sampleWrite "9 yew\n" true,
    sampleWrite "7 yew\n" false, .tick 2250, .fire 1 0, .fire 0 0]

theorem fresh_three : Fresh (Driver.withTable ⟨0, none, [], 0, [], []⟩ 3 3) := ⟨3, true, 0, rfl⟩

set_option maxRecDepth 8192 in
theorem armed_printed_once_run : ∃ d s, Fresh d ∧
    run (step sampleConfig) (fun _ _ => true) ⟨0, d⟩ sampleVoided = some s ∧
      s.driver.log = [nullText, ascii "elm"] ∧ s.driver.waiting = 0 ∧
      (s.driver.log : Multiset (List Byte)) + s.driver.waiting +
          allOf sampleConfig voided ⟨0, d⟩ sampleVoided =
        allOf sampleConfig armed ⟨0, d⟩ sampleVoided +
          (allOf sampleConfig voided ⟨0, d⟩ sampleVoided).map fun _ => nullText := by
  have hrun : (run (step sampleConfig) (fun _ _ => true)
      ⟨0, Driver.withTable ⟨0, none, [], 0, [], []⟩ 3 3⟩ sampleVoided).any (fun s =>
      s.driver.log = [nullText, ascii "elm"] ∧ s.driver.waiting = 0) = true := by decide
  obtain ⟨s, hs, hp⟩ := (Option.any_eq_true _ _).mp hrun
  obtain ⟨hlog, hwaiting⟩ := of_decide_eq_true hp
  exact ⟨_, s, fresh_three, hs, hlog, hwaiting,
    armed_printed_once sampleConfig 0 _ fresh_three sampleVoided s hs⟩

end DevKota.Lab2
