import DevKota.Lab3Write
import DevKota.Runs

/-! The lab3 driver as a machine over an unbounded clock, and what its runs preserve. -/
namespace DevKota.Lab3
open CString Kernel SlotMap

structure State where
  now : ℕ
  driver : Driver

inductive Event
  | tick (ticks : ℕ)
  | write (current : Task) (buf : UserBuf)
  | fire (k : Fin maxTimers)
  | read (count pos : ℕ)
  | procRead

/-- One atomic event. A timer fires at some instant not before it is due. -/
def step (cfg : Config) (s : State) : Event → Option State
  | .tick ticks => some { s with now := s.now + ticks }
  | .write current buf => some { s with driver := (s.driver.mytimerWrite cfg s.now current buf).1 }
  | .fire k =>
    if (s.driver.timers k).timer.Expired s.now then
      (s.driver.expire k).map fun r => { s with driver := r.1 }
    else none
  | .read count pos => some { s with driver := (s.driver.mytimerRead cfg s.now count pos).1 }
  | .procRead => some s

def loaded (now : ℕ) : State := ⟨now, Driver.mytimerInit now⟩

/-- The message of a set command leaves room for its NUL in `timer_msg`. -/
def msgFits (buf : UserBuf) : Prop :=
  accepted buf → commandOf buf = .set → (parseMsg (pad 150 buf.bytes)).length ≤ 127

instance (buf : UserBuf) : Decidable (msgFits buf) := inferInstanceAs (Decidable (_ → _ → _))

/-- Events whose set commands carry messages that fit. -/
def MsgFits (_ : State) : Event → Prop
  | .write _ buf => msgFits buf
  | _ => True

def msgFitsCheck (_ : State) : Event → Bool
  | .write _ buf => msgFits buf
  | _ => true

theorem msgFits_of_check (s : State) (e : Event) (h : msgFitsCheck s e = true) : MsgFits s e := by
  cases e with
  | write current buf => exact (of_decide_eq_true h : msgFits buf)
  | _ => trivial

/-- A kernel build, a caller and its writes, to execute the machine on. -/
def sampleConfig : Config := ⟨100, by decide, by decide, fun w => w*10⟩

def sampleTask (pid : ℕ) (hp : 0 < pid ∧ pid < 2^31) : Task :=
  ⟨pid, ascii "ktimer", hp.1, hp.2, by decide, by decide⟩

def sampleWrite (pid : ℕ) (hp : 0 < pid ∧ pid < 2^31) (text : String) : Event :=
  .write (sampleTask pid hp) ⟨ascii text ++ [0], true⟩

/-- What holds of one slot at every point of a run. -/
structure SlotInv (k : Fin maxTimers) (t : TimerInfo) : Prop where
  active_iff_pending : t.Active ↔ t.timer.pending = true
  handler : t.timer.pending = true → t.timer.function = some (Driver.handlerFor k)
  expires : t.timer.pending = true → t.timer.expires = jiffies t.timer.due
  terminated : t.Terminated

structure Inv (d : Driver) : Prop where
  slot (k : Fin maxTimers) : SlotInv k (d.timers k)
  keyed : Keyed d.slots
  count : d.numberActiveTimers = (occupied d.slots).card
  capacity : d.allowedTimers = 1 ∨ d.allowedTimers = 2

/-- The map from message to deadline, owner and owner command that the slots stand for. -/
noncomputable def Driver.map (d : Driver) : List Byte → Option Entry := entries d.slots

theorem slotInv_idle (k : Fin maxTimers) (t : TimerInfo) (hn : ¬ t.Active)
    (hp : t.timer.pending = false) (ht : t.Terminated) : SlotInv k t where
  active_iff_pending := by simp [hn, hp]
  handler h := by simp [hp] at h
  expires h := by simp [hp] at h
  terminated := ht

theorem inv_init (now : ℕ) : Inv (Driver.mytimerInit now) := by
  have hn (k : Fin maxTimers) : ¬ ((Driver.mytimerInit now).timers k).Active := by
    simp [Driver.mytimerInit, TimerInfo.Active]
  have hslots : (Driver.mytimerInit now).slots = fun _ => none := by
    funext k
    exact (slot_eq_none _).mpr (hn k)
  refine ⟨fun k => slotInv_idle k _ (hn k) rfl ?_, ?_, ?_, Or.inl rfl⟩
  · simp [Driver.mytimerInit, TimerInfo.Terminated]
  · rw [hslots]
    intro i j l v w hi
    cases hi
  · rw [hslots]
    simp [Driver.mytimerInit, occupied]

theorem inv_of_eq (d d' : Driver) (h : Inv d) (ht : d'.timers = d.timers)
    (hn : d'.numberActiveTimers = d.numberActiveTimers) (ha : d'.allowedTimers = d.allowedTimers) :
    Inv d' ∧ d'.map = d.map := by
  have hs : d'.slots = d.slots := by unfold Driver.slots; rw [ht]
  refine ⟨⟨fun k => ?_, ?_, ?_, ?_⟩, ?_⟩
  · rw [ht]; exact h.slot k
  · rw [hs]; exact h.keyed
  · rw [hs, hn]; exact h.count
  · rw [ha]; exact h.capacity
  · unfold Driver.map; rw [hs]

/-- A step that stores one slot and sets the counter to fit. -/
theorem inv_store (d d' : Driver) (k : Fin maxTimers) (t : TimerInfo) (h : Inv d)
    (ht : d'.timers = Function.update d.timers k t) (ha : d'.allowedTimers = d.allowedTimers)
    (hs : SlotInv k t) (hk : Keyed (Function.update d.slots k t.slot))
    (hc : d'.numberActiveTimers = (occupied (Function.update d.slots k t.slot)).card) :
    Inv d' ∧ d'.map = entries (Function.update d.slots k t.slot) := by
  have hslots : d'.slots = Function.update d.slots k t.slot := by
    unfold Driver.slots
    rw [ht]
    exact slots_update d.timers k t
  refine ⟨⟨fun j => ?_, ?_, ?_, ?_⟩, ?_⟩
  · rw [ht]
    by_cases hj : j = k
    · subst hj
      rw [Function.update_self]
      exact hs
    · rw [Function.update_of_ne hj]
      exact h.slot j
  · rw [hslots]; exact hk
  · rw [hslots]; exact hc
  · rw [ha]; exact h.capacity
  · unfold Driver.map; rw [hslots]

section Effects
variable (cfg : Config) (now : ℕ) (current : Task) (d : Driver)

/-- `'-r'` empties the map. -/
theorem writeRemove_effect (h : Inv d) :
    Inv d.writeRemove ∧ d.writeRemove.map = fun _ => none := by
  have hn (k : Fin maxTimers) := stopTimer_slot (d.timers k) (h.slot k).active_iff_pending.mp
  have hslots : d.writeRemove.slots = fun _ => none := by
    funext k
    exact (hn k).1
  refine ⟨⟨fun k => ?_, ?_, ?_, h.capacity⟩, ?_⟩
  · -- a slot that the loop passes over was idle already
    have hk := h.slot k
    have hs := (hn k).2
    change SlotInv k (Driver.stopTimer (d.timers k))
    unfold Driver.stopTimer at hs ⊢
    split_ifs at hs ⊢ with hc
    · exact slotInv_idle k _ hs rfl hk.terminated
    · exact hk
  · rw [hslots]
    intro i j l v w hi
    cases hi
  · rw [hslots]
    simp [Driver.writeRemove, occupied]
  · funext m
    unfold Driver.map
    rw [hslots, entries_eq_none]
    intro i v hv
    cases hv

/-- `'-m'` changes nothing but the capacity. -/
theorem writeCapacity_effect (userBuf : List Byte) (h : Inv d) :
    Inv (d.writeCapacity userBuf) ∧ (d.writeCapacity userBuf).map = d.map := by
  unfold Driver.writeCapacity
  split_ifs
  · exact ⟨⟨h.slot, h.keyed, h.count, Or.inl rfl⟩, rfl⟩
  · exact ⟨⟨h.slot, h.keyed, h.count, Or.inr rfl⟩, rfl⟩
  · exact ⟨h, rfl⟩

theorem size_map (h : Inv d) : (size d.map : ℤ) = d.numberActiveTimers := by
  rw [h.count, Driver.map, size_entries _ h.keyed]

/-- A present message: its slot is re-armed. -/
theorem writeSet_present (userBuf : List Byte) (h : Inv d) (k : Fin maxTimers)
    (hk : d.findMsg (parseMsg userBuf) = some k) :
    Inv (d.writeSet cfg now current userBuf) ∧
      d.map (parseMsg userBuf) = some (d.timers k).entry ∧
      (d.writeSet cfg now current userBuf).map =
        Function.update d.map (parseMsg userBuf)
          (some ⟨now + (parseSec userBuf).toNat*cfg.HZ, (d.timers k).ownerPid,
            (d.timers k).command⟩) := by
  obtain ⟨hact, hmsg⟩ := findMsg_some d _ k (parseMsg_zero userBuf) hk
  have hd := due_parseSec cfg now userBuf
  have hslot : d.slots k = some (parseMsg userBuf, (d.timers k).entry) := by
    rw [← hmsg]
    exact slot_of_active _ hact
  have ht : (Driver.updateTimer cfg now (parseSec userBuf) (d.timers k)).slot =
      some (parseMsg userBuf, ⟨now + (parseSec userBuf).toNat*cfg.HZ, (d.timers k).ownerPid,
        (d.timers k).command⟩) := by
    rw [slot_of_active (Driver.updateTimer cfg now (parseSec userBuf) (d.timers k)) hact,
      ← hd.1, ← hmsg]
    rfl
  have hval := update_value d.slots h.keyed k (parseMsg userBuf) _
    ⟨now + (parseSec userBuf).toNat*cfg.HZ, (d.timers k).ownerPid, (d.timers k).command⟩ hslot
  have hs : SlotInv k (Driver.updateTimer cfg now (parseSec userBuf) (d.timers k)) := by
    have hp := (h.slot k).active_iff_pending.mp hact
    refine ⟨⟨fun _ => rfl, fun _ => hact⟩, fun _ => (h.slot k).handler hp, fun _ => ?_,
      (h.slot k).terminated⟩
    change _ = jiffies (dueOf now _)
    rw [hd.1]
    exact hd.2
  have hstore := inv_store d (d.writeSet cfg now current userBuf) k _ h
    (by simp [Driver.writeSet, hk]) (by simp [Driver.writeSet, hk]) hs
    (by rw [ht]; exact hval.1) (by rw [ht, hval.2.2]; simpa [Driver.writeSet, hk] using h.count)
  refine ⟨hstore.1, (entries_eq_some _ h.keyed _ _).mpr ⟨k, hslot⟩, ?_⟩
  rw [hstore.2, ht]
  exact hval.2.1

theorem map_absent (userBuf : List Byte) (hk : d.findMsg (parseMsg userBuf) = none) :
    d.map (parseMsg userBuf) = none := by
  refine (entries_eq_none _ _).mpr ?_
  intro i v hi
  have hi' : (d.timers i).slot = some (parseMsg userBuf, v) := hi
  have hact : (d.timers i).Active := by
    by_contra hn
    rw [(slot_eq_none _).mpr hn] at hi'
    cases hi'
  rw [slot_of_active _ hact] at hi'
  exact findMsg_none d _ (parseMsg_zero userBuf) hk i hact
    (Prod.mk.inj (Option.some.inj hi')).1

/-- An absent message with room: a free slot is found and filled. -/
theorem writeSet_absent (userBuf : List Byte) (h : Inv d)
    (hl : (parseMsg userBuf).length ≤ 127) (hk : d.findMsg (parseMsg userBuf) = none)
    (hroom : d.numberActiveTimers < d.allowedTimers) :
    Inv (d.writeSet cfg now current userBuf) ∧
      (d.writeSet cfg now current userBuf).map =
        Function.update d.map (parseMsg userBuf)
          (some ⟨now + (parseSec userBuf).toNat*cfg.HZ, current.pid, current.comm⟩) := by
  have hd := due_parseSec cfg now userBuf
  -- the counter is the number of used slots, so below the capacity one is free
  have hfree : ∃ i, d.slots i = none := by
    apply exists_free
    have hc := h.count
    have hle : d.allowedTimers ≤ 2 := by rcases h.capacity with ha | ha <;> omega
    change _ < 2
    omega
  obtain ⟨i, hi⟩ : ∃ i, d.findInactive = some i := by
    cases hf : d.findInactive with
    | some i => exact ⟨i, rfl⟩
    | none =>
      obtain ⟨j, hj⟩ := hfree
      exact absurd (findInactive_none d hf j) ((slot_eq_none _).mp hj)
  have hnone : d.slots i = none := (slot_eq_none _).mpr (findInactive_some d i hi)
  obtain ⟨ht, hterm⟩ := fillTimer_slot cfg now current i userBuf (d.timers i) hl
  have hins := update_insert d.slots h.keyed i (parseMsg userBuf)
    ⟨now + (parseSec userBuf).toNat*cfg.HZ, current.pid, current.comm⟩ hnone
    (map_absent d userBuf hk)
  have hs : SlotInv i (Driver.fillTimer cfg now current i (parseSec userBuf) (parseMsg userBuf)
      (d.timers i)) := by
    refine ⟨?_, ?_, ?_, hterm⟩ <;>
      rw [fillTimer_eq cfg now current i _ _ _ (parseMsg_zero userBuf) hl]
    · exact ⟨fun _ => rfl, fun _ => by simp [TimerInfo.Active]⟩
    · exact fun _ => rfl
    · intro _
      change _ = jiffies (dueOf now _)
      rw [hd.1]
      exact hd.2
  have hstore := inv_store d (d.writeSet cfg now current userBuf) i _ h
    (by simp [Driver.writeSet, hk, hroom, hi]) (by simp [Driver.writeSet, hk, hroom, hi]) hs
    (by rw [ht]; exact hins.1)
    (by rw [ht, hins.2.2]; simpa [Driver.writeSet, hk, hroom, hi] using h.count)
  refine ⟨hstore.1, ?_⟩
  rw [hstore.2, ht]
  exact hins.2.1

/-- `'-s'` is the map's bounded assignment, made by the caller. -/
theorem writeSet_effect (userBuf : List Byte) (h : Inv d)
    (hl : (parseMsg userBuf).length ≤ 127) :
    Inv (d.writeSet cfg now current userBuf) ∧
      (d.writeSet cfg now current userBuf).map =
        assign d.allowedTimers d.map (parseMsg userBuf)
          (fun e => { e with deadline := now + (parseSec userBuf).toNat*cfg.HZ })
          ⟨now + (parseSec userBuf).toNat*cfg.HZ, current.pid, current.comm⟩ := by
  cases hk : d.findMsg (parseMsg userBuf) with
  | some k =>
    -- an update: the owner of the entry stays
    obtain ⟨hinv, hold, hnew⟩ := writeSet_present cfg now current d userBuf h k hk
    refine ⟨hinv, ?_⟩
    rw [hnew, assign, hold]
    simp only [TimerInfo.entry]
  | none =>
    have hold := map_absent d userBuf hk
    rw [assign, hold]
    by_cases hroom : d.numberActiveTimers < d.allowedTimers
    · obtain ⟨hinv, hnew⟩ := writeSet_absent cfg now current d userBuf h hl hk hroom
      refine ⟨hinv, ?_⟩
      rw [hnew]
      simp only [size_map d h, hroom, if_true]
    · -- a full driver drops the command
      have heq : d.writeSet cfg now current userBuf = d := by
        simp [Driver.writeSet, hk, hroom]
      rw [heq]
      refine ⟨h, ?_⟩
      simp only [size_map d h, hroom, if_false]

theorem writeSet_allowed (userBuf : List Byte) :
    (d.writeSet cfg now current userBuf).allowedTimers = d.allowedTimers := by
  unfold Driver.writeSet
  split
  · rfl
  · split_ifs
    · split <;> rfl
    · rfl

/-- A firing takes out the entry of its slot and wakes that entry's owner. -/
theorem expire_effect (h : Inv d) (k : Fin maxTimers) (hp : (d.timers k).timer.pending = true) :
    ∃ d', d.expire k = some (d', (d.timers k).ownerPid) ∧ Inv d' ∧
      d.map (d.timers k).msg = some (d.timers k).entry ∧
      d'.map = erase d.map (d.timers k).msg ∧ d'.allowedTimers = d.allowedTimers := by
  -- the slot and the driver that the kernel and the handler leave
  let t : TimerInfo := { d.timers k with timer := (d.timers k).timer.delTimer, active := 0 }
  let d' : Driver := { d.setTimer k t with numberActiveTimers := d.numberActiveTimers - 1 }
  have hact : (d.timers k).Active := (h.slot k).active_iff_pending.mpr hp
  have hexp : d.expire k = some (d', (d.timers k).ownerPid) :=
    expire_eq d k ((h.slot k).handler hp)
  have hslot : d.slots k = some ((d.timers k).msg, (d.timers k).entry) := slot_of_active _ hact
  have hn : ¬ t.Active := by simp [t, TimerInfo.Active]
  have ht : t.slot = none := (slot_eq_none t).mpr hn
  have hfree := update_free d.slots h.keyed k _ _ hslot
  have hstore := inv_store d d' k t h rfl rfl (slotInv_idle k t hn rfl (h.slot k).terminated)
    (by rw [ht]; exact hfree.1)
    (by
      rw [ht]
      have hc := h.count
      have he := hfree.2.2
      change d.numberActiveTimers - 1 = _
      omega)
  refine ⟨d', hexp, hstore.1, (entries_eq_some _ h.keyed _ _).mpr ⟨k, hslot⟩, ?_, rfl⟩
  rw [hstore.2, ht]
  exact hfree.2.1

theorem mytimerRead_effect (count pos : ℕ) (h : Inv d) :
    Inv (d.mytimerRead cfg now count pos).1 ∧
      (d.mytimerRead cfg now count pos).1.map = d.map ∧
      (d.mytimerRead cfg now count pos).1.allowedTimers = d.allowedTimers := by
  rw [mytimerRead_fst]
  have heq := inv_of_eq d (d.prepareReadMsg cfg now) h rfl rfl rfl
  exact ⟨heq.1, heq.2, rfl⟩

end Effects

end DevKota.Lab3
