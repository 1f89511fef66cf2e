import DevKota.Lab2OldDriver
import DevKota.ChunkedReads
import DevKota.Ledgers
import DevKota.Runs

/-! Runs of the first lab2 driver: its memory, its messages, and the allocation that fails. -/
namespace DevKota.Lab2Old
open CString Kernel Runs Ledgers
open Lab2 (Config Pointer)

/-- What a write asks for: an error, or seconds and a message. -/
def requestOf (buf : UserBuf) : Except ℤ (ℤ × List Byte) :=
  if buf.bytes.length > 128 then .error (-EINVAL)
  else if ¬ buf.mapped then .error (-EFAULT)
  else
    let r := strsep 32 (cstr (buf.bytes ++ [0]))
    match kstrtol r.1 with
    | .error e => .error e
    | .ok seconds =>
      match r.2 with
      | none => .error (-EINVAL)
      | some rest => .ok (seconds, (strsep 10 rest).1)

namespace Driver

/-- The timer set for a message in a new block. -/
def filled (cfg : Config) (now : ℕ) (d : Driver) (seconds : ℤ) (message : List Byte) : Driver :=
  { d with
    timer := TimerList.modTimer { d.timer with function := some .timerCb0 } now
      (jiffies now + BitVec.ofInt 32 seconds * BitVec.ofNat 32 cfg.HZ)
    gTimerMessage := .block d.nextBlock message
    nextBlock := d.nextBlock + 1 }

/-- The timer marked as used, without a message. -/
def unfilled (d : Driver) : Driver :=
  { d with timer := { d.timer with function := some .timerCb0 }, gTimerMessage := .null }

/-- The timer after its callback has run. -/
def fired (d : Driver) (id : ℕ) (text : List Byte) : Driver :=
  { d with
    timer := { d.timer.delTimer with function := none }
    freed := id :: d.freed
    log := d.log ++ [text] }

/-- The message that is still to be printed. -/
def waiting (d : Driver) : List (List Byte) :=
  match d.gTimerMessage with
  | .block _ text => if d.timer.pending then [text] else []
  | _ => []

end Driver

/-- A driver is idle, it has a message to print, or its allocation failed. -/
inductive Slot (d : Driver) : Prop
  | idle (hf : d.timer.function = none) (hp : d.timer.pending = false)
  | armed (id : ℕ) (text : List Byte) (hf : d.timer.function = some .timerCb0)
      (hp : d.timer.pending = true) (hm : d.gTimerMessage = .block id text) (ht : id ≠ d.table)
  | wedged (hf : d.timer.function = some .timerCb0) (hp : d.timer.pending = false)
      (hm : d.gTimerMessage = .null)

def Wedged (d : Driver) : Prop :=
  d.timer.function = some .timerCb0 ∧ d.timer.pending = false

instance (d : Driver) : Decidable (Wedged d) := inferInstanceAs (Decidable (_ ∧ _))

/-- The blocks in use: the table, and that of a message still to be printed. -/
def Driver.owned (d : Driver) : Set ℕ :=
  {id | id = d.table ∨ d.timer.pending = true ∧ ∃ text, d.gTimerMessage = .block id text}

/-- What holds of the module in every state of a run. -/
structure Books (d : Driver) : Prop where
  one : d.gNumTimers = 1
  slot : Slot d
  ledger : ∃ l : Ledger, l.next = d.nextBlock ∧ l.freed = d.freed ∧ l.OwnedBy d.owned

theorem requestOf_error (buf : UserBuf) (e : ℤ) (h : requestOf buf = .error e) : e < 0 := by
  unfold requestOf at h
  simp only at h
  split_ifs at h
  · obtain rfl := Except.error.inj h
    decide
  · split at h
    · rename_i hk
      obtain rfl := Except.error.inj h
      exact kstrtol_error _ _ hk
    · split at h
      · obtain rfl := Except.error.inj h
        decide
      · cases h
  · obtain rfl := Except.error.inj h
    decide

section Operations
variable (cfg : Config) (now : ℕ) (d : Driver)

/-- Everything `timer_write` does with one timer. -/
theorem timerWrite_eq (hd : d.gNumTimers = 1) (hs : Slot d) (buf : UserBuf) (alloc : Bool) :
    d.timerWrite cfg now buf alloc =
      match requestOf buf with
      | .error e => (d, e)
      | .ok (seconds, message) =>
        if d.timer.function = none then
          if alloc then (d.filled cfg now seconds message, (buf.bytes.length : ℤ))
          else (d.unfilled, -ENOMEM)
        else (d, -ENOMEM) := by
  have hpos : 0 < ENOMEM := by decide
  have hle : ¬ ENOMEM ≤ 0 := by decide
  unfold Driver.timerWrite Driver.parseTimerInput requestOf
  by_cases hl : buf.bytes.length > 128
  · simp only [if_pos hl]
  · by_cases hm : buf.mapped = true
    · simp only [if_neg hl, hm, not_true_eq_false, if_false]
      cases hk : kstrtol (strsep 32 (cstr (buf.bytes ++ [0]))).1 with
      | error e => simp only [if_pos (kstrtol_error _ _ hk)]
      | ok seconds =>
        cases hr : (strsep 32 (cstr (buf.bytes ++ [0]))).2 with
        | none => rfl
        | some rest =>
          -- with one timer the only index is 0, and it is free without a callback
          cases hs with
          | idle hf hp =>
            have hidx : ¬ d.gNumTimers ≤ 0 := by rw [hd]; decide
            cases alloc with
            | true =>
              simp [Driver.findAvailableTimer, Driver.setTimer, hf, hidx, hp, Driver.filled]
            | false =>
              simp [Driver.findAvailableTimer, Driver.setTimer, hf, hidx, Driver.unfilled, hpos]
          | armed id text hf hp hmsg ht =>
            simp [Driver.findAvailableTimer, hf, hpos, hle]
          | wedged hf hp hmsg => simp [Driver.findAvailableTimer, hf, hpos, hle]
    · simp [hl, hm]

/-- The callback of an armed timer finds its message, prints it and frees it. -/
theorem expire_eq (id : ℕ) (text : List Byte) (hf : d.timer.function = some .timerCb0)
    (hm : d.gTimerMessage = .block id text) (hid : id ∉ d.freed) :
    d.expire = some (d.fired id text) := by
  unfold Driver.expire
  rw [hf]
  simp only [Driver.timerCb0, hm, Driver.deref, if_neg hid, Option.bind_some, Driver.kfree,
    Driver.fired]

end Operations

theorem books_loaded (load : ℕ) : Books (loaded load).driver := by
  refine ⟨rfl, .idle rfl rfl, ⟨1, [], List.nodup_nil, fun id hid => by cases hid⟩, rfl, rfl, ?_⟩
  intro id
  change (id < 1 ∧ id ∉ []) ↔ (id = 0 ∨ false = true ∧ _)
  simp

section Steps
variable (cfg : Config) (now : ℕ) (d : Driver) (h : Books d)
include h

/-- The block of a message that is still to be printed is live. -/
theorem message_live (id : ℕ) (text : List Byte) (hp : d.timer.pending = true)
    (hm : d.gTimerMessage = .block id text) : id < d.nextBlock ∧ id ∉ d.freed := by
  obtain ⟨l, hnext, hfreed, hown⟩ := h.ledger
  have hlive := (hown id).mpr (Or.inr ⟨hp, text, hm⟩)
  rw [← hnext, ← hfreed]
  exact hlive

theorem table_live : d.table < d.nextBlock ∧ d.table ∉ d.freed := by
  obtain ⟨l, hnext, hfreed, hown⟩ := h.ledger
  have hlive := (hown d.table).mpr (Or.inl rfl)
  rw [← hnext, ← hfreed]
  exact hlive

omit h in
theorem owned_idle (hp : d.timer.pending = false) : d.owned = {d.table} := by
  ext id
  simp [Driver.owned, hp]

theorem books_filled (hp : d.timer.pending = false) (seconds : ℤ) (message : List Byte) :
    Books (d.filled cfg now seconds message) := by
  obtain ⟨l, hnext, hfreed, hown⟩ := h.ledger
  have htable := (table_live d h).1
  refine ⟨h.one, .armed d.nextBlock message rfl rfl rfl (Nat.ne_of_gt htable), l.alloc, ?_, hfreed,
    ?_⟩
  · change l.next + 1 = d.nextBlock + 1
    rw [hnext]
  · -- the new block joins the table
    have howned : (d.filled cfg now seconds message).owned = d.owned ∪ {l.next} := by
      rw [owned_idle d hp, hnext]
      ext id
      simp only [Driver.owned, Driver.filled, TimerList.modTimer, Pointer.block.injEq,
        Set.mem_ofPred_eq, Set.mem_union, Set.mem_singleton_iff, true_and]
      grind
    rw [howned]
    exact Ledger.ownedBy_alloc hown

theorem books_unfilled (hp : d.timer.pending = false) : Books d.unfilled := by
  obtain ⟨l, hnext, hfreed, hown⟩ := h.ledger
  refine ⟨h.one, .wedged rfl hp rfl, l, hnext, hfreed, ?_⟩
  have howned : d.unfilled.owned = d.owned := by
    rw [owned_idle d hp]
    ext id
    simp [Driver.owned, Driver.unfilled]
  rw [howned]
  exact hown

theorem books_fired (id : ℕ) (text : List Byte) (hp : d.timer.pending = true)
    (hm : d.gTimerMessage = .block id text) (ht : id ≠ d.table) : Books (d.fired id text) := by
  obtain ⟨l, hnext, hfreed, hown⟩ := h.ledger
  have hlive : l.Live id := (hown id).mpr (Or.inr ⟨hp, text, hm⟩)
  refine ⟨h.one, .idle rfl rfl, l.free id hlive, hnext, ?_, ?_⟩
  · change id :: l.freed = id :: d.freed
    rw [hfreed]
  · -- what is left of the blocks in use is the table
    have howned : (d.fired id text).owned = d.owned \ {id} := by
      ext id'
      simp only [Driver.owned, Driver.fired, TimerList.delTimer, Bool.false_eq_true, false_and,
        or_false, hm, hp, true_and, Pointer.block.injEq, Set.mem_sdiff, Set.mem_ofPred_eq,
        Set.mem_singleton_iff]
      grind
    rw [howned]
    exact Ledger.ownedBy_free hown id hlive

end Steps

/-- Everything that a step can do. -/
inductive Did (cfg : Config) (s t : State) : Event → Prop
  | tick (ticks : ℕ) (hd : t.driver = s.driver) : Did cfg s t (.tick ticks)
  | refused (buf : UserBuf) (alloc : Bool) (hd : t.driver = s.driver)
      (hr : (s.driver.timerWrite cfg s.now buf alloc).2 < 0) : Did cfg s t (.write buf alloc)
  | set (buf : UserBuf) (seconds : ℤ) (message : List Byte)
      (hq : requestOf buf = .ok (seconds, message)) (hf : s.driver.timer.function = none)
      (hr : 0 ≤ (s.driver.timerWrite cfg s.now buf true).2)
      (hd : t.driver = s.driver.filled cfg s.now seconds message) : Did cfg s t (.write buf true)
  | starved (buf : UserBuf) (r : ℤ × List Byte) (hq : requestOf buf = .ok r)
      (hf : s.driver.timer.function = none)
      (hr : (s.driver.timerWrite cfg s.now buf false).2 < 0) (hd : t.driver = s.driver.unfilled) :
      Did cfg s t (.write buf false)
  | fire (id : ℕ) (text : List Byte) (hp : s.driver.timer.pending = true)
      (hm : s.driver.gTimerMessage = .block id text) (ht : id ≠ s.driver.table)
      (hd : t.driver = s.driver.fired id text) : Did cfg s t .fire

/-- Only an armed timer is pending. -/
theorem armed_of_pending (d : Driver) (hs : Slot d) (hp : d.timer.pending = true) :
    ∃ id text, d.timer.function = some .timerCb0 ∧ d.gTimerMessage = .block id text ∧
      id ≠ d.table := by
  cases hs with
  | idle hf hn =>
    rw [hn] at hp
    cases hp
  | armed id text hf _ hm ht => exact ⟨id, text, hf, hm, ht⟩
  | wedged hf hn hm =>
    rw [hn] at hp
    cases hp

theorem idle_of_free (d : Driver) (hs : Slot d) (hf : d.timer.function = none) :
    d.timer.pending = false := by
  cases hs with
  | idle _ hp => exact hp
  | armed id text hfn => rw [hf] at hfn; cases hfn
  | wedged hfn => rw [hf] at hfn; cases hfn

section Runs
variable (cfg : Config) (s t : State)

theorem step_did (e : Event) (h : Books s.driver) (hs : step cfg s e = some t) : Did cfg s t e := by
  cases e with
  | tick ticks =>
    obtain rfl := Option.some.inj hs
    exact .tick ticks rfl
  | write buf alloc =>
    obtain rfl := Option.some.inj hs
    have hw := timerWrite_eq cfg s.now s.driver h.one h.slot buf alloc
    have hneg : -ENOMEM < (0 : ℤ) := by decide
    cases hq : requestOf buf with
    | error e =>
      rw [hq] at hw
      exact .refused buf alloc (by rw [hw]) (by rw [hw]; exact requestOf_error buf e hq)
    | ok r =>
      rw [hq] at hw
      by_cases hf : s.driver.timer.function = none
      · simp only [if_pos hf] at hw
        -- the free slot is taken, or its block cannot be had
        cases alloc with
        | true => exact .set buf r.1 r.2 hq hf (by rw [hw]; exact Int.natCast_nonneg _) (by rw [hw]; rfl)
        | false => exact .starved buf r hq hf (by rw [hw]; exact hneg) (by rw [hw]; rfl)
      · simp only [if_neg hf] at hw
        exact .refused buf alloc (by rw [hw]) (by rw [hw]; exact hneg)
  | fire =>
    simp only [step] at hs
    split_ifs at hs with hx
    obtain ⟨id, text, hf, hm, ht⟩ := armed_of_pending s.driver h.slot hx.1
    have hid := (message_live s.driver h id text hx.1 hm).2
    rw [expire_eq s.driver id text hf hm hid] at hs
    obtain rfl := Option.some.inj hs
    exact .fire id text hx.1 hm ht rfl

theorem books_step (e : Event) (h : Books s.driver) (hs : step cfg s e = some t) :
    Books t.driver := by
  cases step_did cfg s t e h hs with
  | tick ticks hd => exact hd ▸ h
  | refused buf alloc hd hr => exact hd ▸ h
  | set buf seconds message hq hf hr hd =>
    rw [hd]
    exact books_filled cfg s.now s.driver h (idle_of_free _ h.slot hf) seconds message
  | starved buf r hq hf hr hd =>
    rw [hd]
    exact books_unfilled s.driver h (idle_of_free _ h.slot hf)
  | fire id text hp hm ht hd =>
    rw [hd]
    exact books_fired s.driver h id text hp hm ht

theorem books_run (load : ℕ) (es : List Event)
    (h : run (step cfg) (fun _ _ => true) (loaded load) es = some t) : Books t.driver :=
  run_invariant (I := fun s => Books s.driver) (fun s e u hi _ hs => books_step cfg s u e hi hs) h
    (books_loaded load)

end Runs

/-- A kernel build and writes, to execute the machine on. -/
def sampleConfig : Config := ⟨200, by decide, by decide⟩

def sampleWrite (text : String) (alloc : Bool) : Event := .write ⟨ascii text, true⟩ alloc

/-- A timer, one too many, the firing, and the second timer again. -/
def teaAndEgg : List Event :=
  [sampleWrite "5 tea\n" true, sampleWrite "3 egg\n" true, .tick 1000, .fire,
    sampleWrite "3 egg\n" true]

section Memory

/-- Unloading frees nothing but blocks, and every block that was ever allocated exactly once. -/
def UnloadClean (d : Driver) : Prop :=
  ∃ d', d.timersDestroy = some d' ∧ ∀ id < d'.nextBlock, d'.freed.count id = 1

/-- An unload is clean exactly when the timer is free: a callback is no block. -/
theorem unload_clean_iff (d : Driver) (h : Books d) : UnloadClean d ↔ d.timer.function = none := by
  constructor
  · rintro ⟨d', hd', -⟩
    by_contra hf
    obtain ⟨f, hf⟩ := Option.ne_none_iff_exists'.mp hf
    simp [Driver.timersDestroy, hf, TimerList.delTimer, Driver.functionPointer, Driver.kfree] at hd'
  · intro hf
    obtain ⟨l, hnext, hfreed, hown⟩ := h.ledger
    rw [owned_idle d (idle_of_free d h.slot hf)] at hown
    have hlive : l.Live d.table := (hown d.table).mpr rfl
    have hnot : d.table ∉ d.freed := hfreed ▸ hlive.2
    refine ⟨{ d with timer := d.timer.delTimer, freed := d.table :: d.freed }, ?_, ?_⟩
    · simp [Driver.timersDestroy, hf, TimerList.delTimer, Driver.functionPointer, Driver.kfree, hnot]
    · -- the table was the last block in use
      have hsettled := Ledger.ownedBy_free hown d.table hlive
      rw [sdiff_self, Set.bot_eq_empty] at hsettled
      intro id hid
      have hcount := Ledger.settled hsettled id (hnext ▸ hid)
      change (d.table :: l.freed).count id = 1 at hcount
      rw [hfreed] at hcount
      exact hcount

/-- In every run the blocks that are not freed are the table and the message still to be printed,
no block is freed twice, a firing always finds its message, and an unload at the end is clean
exactly when the timer is free. -/
theorem memory_balances (cfg : Config) (load : ℕ) (es : List Event) (t : State)
    (h : run (step cfg) (fun _ _ => true) (loaded load) es = some t) :
    (∀ id, id < t.driver.nextBlock ∧ id ∉ t.driver.freed ↔
      id = t.driver.table ∨ t.driver.timer.pending = true ∧
        ∃ text, t.driver.gTimerMessage = .block id text) ∧
    t.driver.freed.Nodup ∧
    (t.driver.timer.Expired t.now → ∃ u, step cfg t .fire = some u) ∧
    (UnloadClean t.driver ↔ t.driver.timer.function = none) := by
  have hbooks := books_run cfg t load es h
  obtain ⟨l, hnext, hfreed, hown⟩ := hbooks.ledger
  refine ⟨fun id => ?_, hfreed ▸ l.nodup, fun hx => ?_, unload_clean_iff t.driver hbooks⟩
  · rw [← hnext, ← hfreed]
    exact hown id
  · obtain ⟨id, text, hf, hm, -⟩ := armed_of_pending t.driver hbooks.slot hx.1
    have hid := (message_live t.driver hbooks id text hx.1 hm).2
    refine ⟨{ t with driver := t.driver.fired id text }, ?_⟩
    simp only [step, if_pos hx, expire_eq t.driver id text hf hm hid, Option.map_some]

set_option maxRecDepth 8192 in
theorem memory_balances_run : ∃ t,
    run (step sampleConfig) (fun _ _ => true) (loaded 0) teaAndEgg = some t ∧
      t.driver.freed = [1] ∧ ¬ UnloadClean t.driver := by
  have hrun : (run (step sampleConfig) (fun _ _ => true) (loaded 0) teaAndEgg).any (fun t =>
      t.driver.freed = [1] ∧ t.driver.timer.function ≠ none) = true := by decide
  obtain ⟨t, ht, hp⟩ := (Option.any_eq_true _ _).mp hrun
  obtain ⟨hfreed, hf⟩ := of_decide_eq_true hp
  refine ⟨t, ht, hfreed, fun hclean => hf ?_⟩
  exact (memory_balances sampleConfig 0 teaAndEgg t ht).2.2.2.mp hclean

end Memory

section Messages
variable (cfg : Config)

/-- The message of a write that the driver takes. -/
def taken (s : State) : Event → Option (List Byte)
  | .write buf alloc =>
    match requestOf buf with
    | .ok r => if 0 ≤ (s.driver.timerWrite cfg s.now buf alloc).2 then some r.2 else none
    | .error _ => none
  | _ => none

/-- The messages taken along a run, oldest first. -/
def allTaken (s : State) : List Event → List (List Byte)
  | [] => []
  | e :: es => (taken cfg s e).toList ++ ((step cfg s e).map fun t => allTaken t es).getD []

theorem taken_step (s t : State) (e : Event) (h : Books s.driver) (hs : step cfg s e = some t) :
    s.driver.log ++ s.driver.waiting ++ (taken cfg s e).toList =
      t.driver.log ++ t.driver.waiting := by
  cases step_did cfg s t e h hs with
  | tick ticks hd =>
    rw [hd]
    exact List.append_nil _
  | refused buf alloc hd hr =>
    have hnone : taken cfg s (.write buf alloc) = none := by
      simp only [taken]
      split
      · exact if_neg (not_le.mpr hr)
      · rfl
    rw [hd, hnone]
    exact List.append_nil _
  | set buf seconds message hq hf hr hd =>
    have hp := idle_of_free s.driver h.slot hf
    have hsome : taken cfg s (.write buf true) = some message := by
      simp only [taken, hq, if_pos hr]
    -- a free slot waits for nothing
    have hempty : s.driver.waiting = [] := by
      unfold Driver.waiting
      split
      · simp [hp]
      · rfl
    rw [hd, hsome, hempty]
    simp [Driver.waiting, Driver.filled, TimerList.modTimer]
  | starved buf r hq hf hr hd =>
    have hp := idle_of_free s.driver h.slot hf
    have hnone : taken cfg s (.write buf false) = none := by
      simp only [taken, hq, if_neg (not_le.mpr hr)]
    have hempty : s.driver.waiting = [] := by
      unfold Driver.waiting
      split
      · simp [hp]
      · rfl
    rw [hd, hnone, hempty]
    simp [Driver.waiting, Driver.unfilled]
  | fire id text hp hm ht hd =>
    have hone : s.driver.waiting = [text] := by
      simp only [Driver.waiting, hm, if_pos hp]
    have hempty : (s.driver.fired id text).waiting = [] := by
      simp [Driver.waiting, Driver.fired, hm, TimerList.delTimer]
    rw [hd, hone, hempty]
    simp [taken, Driver.fired]

theorem taken_run (s t : State) (es : List Event) (hb : Books s.driver)
    (h : run (step cfg) (fun _ _ => true) s es = some t) :
    s.driver.log ++ s.driver.waiting ++ allTaken cfg s es = t.driver.log ++ t.driver.waiting := by
  induction es generalizing s with
  | nil =>
    obtain rfl := Option.some.inj h
    exact List.append_nil _
  | cons e es ih =>
    obtain ⟨-, u, hu, hrest⟩ := run_cons h
    have hstep := taken_step cfg s u e hb hu
    rw [allTaken, hu, Option.map_some, Option.getD_some, ← List.append_assoc, hstep]
    exact ih u (books_step cfg s u e hb hu) hrest

end Messages

section Starved
variable (cfg : Config)

/-- A write that could be carried out gets its block. -/
def Fed (s : State) : Event → Prop
  | .write buf alloc => (∃ r, requestOf buf = .ok r) → s.driver.timer.function = none → alloc = true
  | _ => True

theorem wedged_step_iff (s t : State) (e : Event) (h : Books s.driver) (hw : ¬ Wedged s.driver)
    (hs : step cfg s e = some t) : ¬ Wedged t.driver ↔ Fed s e := by
  cases step_did cfg s t e h hs with
  | tick ticks hd =>
    rw [hd]
    exact ⟨fun _ => trivial, fun _ => hw⟩
  | refused buf alloc hd hr =>
    rw [hd]
    refine ⟨fun _ ⟨r, hq⟩ hf => ?_, fun _ => hw⟩
    -- a refusal on a free timer is the allocation's or the text's
    rw [timerWrite_eq cfg s.now s.driver h.one h.slot buf alloc, hq] at hr
    simp only [if_pos hf] at hr
    cases alloc with
    | true =>
      simp only [if_true] at hr
      omega
    | false =>
      have ht := congrArg State.driver (Option.some.inj hs)
      change (s.driver.timerWrite cfg s.now buf false).1 = _ at ht
      rw [timerWrite_eq cfg s.now s.driver h.one h.slot buf false, hq, hd] at ht
      simp only [if_pos hf] at ht
      have hfun := congrArg (fun d : Driver => d.timer.function) ht
      change some _ = s.driver.timer.function at hfun
      rw [hf] at hfun
      cases hfun
  | set buf seconds message hq hf hr hd =>
    rw [hd]
    refine ⟨fun _ _ _ => rfl, fun _ hbad => ?_⟩
    cases hbad.2
  | starved buf r hq hf hr hd =>
    rw [hd]
    refine ⟨fun hgood => absurd ⟨rfl, idle_of_free s.driver h.slot hf⟩ hgood, fun hfed => ?_⟩
    cases hfed ⟨r, hq⟩ hf
  | fire id text hp hm ht hd =>
    rw [hd]
    refine ⟨fun _ => trivial, fun _ hbad => ?_⟩
    cases hbad.1

/-- A wedged driver never changes again. -/
theorem wedged_step (s t : State) (e : Event) (h : Books s.driver) (hw : Wedged s.driver)
    (hs : step cfg s e = some t) : t.driver = s.driver := by
  cases step_did cfg s t e h hs with
  | tick ticks hd => exact hd
  | refused buf alloc hd hr => exact hd
  | set buf seconds message hq hf =>
    rw [hw.1] at hf
    cases hf
  | starved buf r hq hf =>
    rw [hw.1] at hf
    cases hf
  | fire id text hp =>
    rw [hw.2] at hp
    cases hp

/-- Once one allocation for a message fails, no later run changes the driver: every write is
refused, nothing fires, and unloading frees what is no block. -/
theorem wedged_for_ever (load : ℕ) (es fs : List Event) (s t : State)
    (h : run (step cfg) (fun _ _ => true) (loaded load) es = some s) (hw : Wedged s.driver)
    (hfs : run (step cfg) (fun _ _ => true) s fs = some t) :
    t.driver = s.driver ∧ step cfg t .fire = none ∧ t.driver.timersDestroy = none ∧
      ∀ buf alloc, (t.driver.timerWrite cfg t.now buf alloc).2 < 0 := by
  have hbooks := books_run cfg s load es h
  -- no event changes a wedged driver, so the run keeps it
  have hsame : t.driver = s.driver := by
    refine run_invariant (I := fun u => u.driver = s.driver) ?_ hfs rfl
    intro u e v hu _ hv
    rw [wedged_step cfg u v e (hu ▸ hbooks) (hu ▸ hw) hv, hu]
  refine ⟨hsame, ?_, ?_, fun buf alloc => ?_⟩
  · have hx : ¬ t.driver.timer.Expired t.now := by
      intro hx
      have hp := hx.1
      rw [hsame, hw.2] at hp
      cases hp
    simp only [step, if_neg hx]
  · rw [hsame]
    simp [Driver.timersDestroy, TimerList.delTimer, hw.1, Driver.functionPointer, Driver.kfree]
  · have hneg : -ENOMEM < (0 : ℤ) := by decide
    have hf : ¬ s.driver.timer.function = none := by
      rw [hw.1]
      exact Option.some_ne_none _
    rw [hsame, timerWrite_eq cfg t.now s.driver hbooks.one hbooks.slot buf alloc]
    cases hq : requestOf buf with
    | error e => exact requestOf_error buf e hq
    | ok r =>
      simp only [if_neg hf]
      exact hneg

/-- A run gets through without wedging the driver exactly when each write that could be carried
out got its block. -/
theorem unwedged_iff_fed (load : ℕ) (es : List Event) (t : State)
    (h : run (step cfg) (fun _ _ => true) (loaded load) es = some t) :
    Always (step cfg) (fun s => ¬ Wedged s.driver) (loaded load) es ↔
      Meets (step cfg) Fed (loaded load) es :=
  always_iff_meets (I := fun s => Books s.driver)
    (fun s e u hi _ hs => books_step cfg s u e hi hs)
    (fun s e u hi hw _ hs => wedged_step_iff cfg s u e hi hw hs) h (books_loaded load)
    (fun hw => by cases hw.1)

set_option maxRecDepth 8192 in
theorem wedged_for_ever_run : ∃ s t,
    run (step sampleConfig) (fun _ _ => true) (loaded 0) [sampleWrite "5 tea\n" false] = some s ∧
      run (step sampleConfig) (fun _ _ => true) s [.tick 1000, sampleWrite "3 egg\n" true] =
        some t ∧ t.driver = s.driver ∧ t.driver.timersDestroy = none := by
  have hrun : (run (step sampleConfig) (fun _ _ => true) (loaded 0)
      [sampleWrite "5 tea\n" false]).any (fun s => Wedged s.driver ∧
        (run (step sampleConfig) (fun _ _ => true) s
          [.tick 1000, sampleWrite "3 egg\n" true]).isSome = true) = true := by decide
  obtain ⟨s, hs, hp⟩ := (Option.any_eq_true _ _).mp hrun
  obtain ⟨hw, hsome⟩ := of_decide_eq_true hp
  obtain ⟨t, ht⟩ := Option.isSome_iff_exists.mp hsome
  obtain ⟨hsame, -, hdestroy, -⟩ := wedged_for_ever sampleConfig 0 _ _ s t hs hw ht
  exact ⟨s, t, hs, ht, hsame, hdestroy⟩

theorem unwedged_iff_fed_run : ∃ t,
    run (step sampleConfig) (fun _ _ => true) (loaded 0) teaAndEgg = some t ∧
      (Always (step sampleConfig) (fun s => ¬ Wedged s.driver) (loaded 0) teaAndEgg ↔
        Meets (step sampleConfig) Fed (loaded 0) teaAndEgg) := by
  have hsome : (run (step sampleConfig) (fun _ _ => true) (loaded 0) teaAndEgg).isSome = true := by
    decide +kernel
  obtain ⟨t, ht⟩ := Option.isSome_iff_exists.mp hsome
  exact ⟨t, ht, unwedged_iff_fed sampleConfig 0 teaAndEgg t ht⟩

end Starved

section Read

/-- However the text is read in pieces, it is delivered once, and then the end of the file. -/
theorem fixed_text_delivered (sizes : ℕ → ℕ) (hpos : ∀ n, 0 < sizes n) :
    ∃ n, ChunkedReads.chunk (fun _ => timerReadFrom) () sizes n = [] ∧
      (∀ i < n, ChunkedReads.chunk (fun _ => timerReadFrom) () sizes i ≠ []) ∧
      ChunkedReads.delivered (fun _ => timerReadFrom) () sizes n = fixedText := by
  -- each read gives a piece of the text and moves on by its length
  have hserves : ChunkedReads.Serves (fun _ : Unit => timerReadFrom) (fun _ => True) (fun _ => True)
      id fixedText := by
    refine ⟨fun _ _ _ _ _ => trivial, fun _ count pos _ _ => ?_⟩
    change (timerRead count pos).1 = (fixedText.drop pos).take count
    unfold timerRead
    split_ifs with hend
    · rw [List.drop_eq_nil_of_le hend]
      exact List.take_nil.symm
    · rfl
  have hadv : ChunkedReads.Advances (fun _ : Unit => timerReadFrom) fixedText.length := by
    intro _ count pos hpos'
    change (timerRead count pos).2 = pos + (timerRead count pos).1.length ∧
      (timerRead count pos).2 ≤ fixedText.length
    unfold timerRead
    split_ifs with hend
    · exact ⟨rfl, hpos'⟩
    · change pos + min count (fixedText.length - pos) =
          pos + ((fixedText.drop pos).take count).length ∧
        pos + min count (fixedText.length - pos) ≤ fixedText.length
      rw [List.length_take, List.length_drop]
      omega
  exact ChunkedReads.delivers hserves hadv () sizes trivial (fun _ => trivial) hpos

end Read

end DevKota.Lab2Old
