import DevKota.Lab3Invariant
import DevKota.Lab3Text

/-! The lab3 driver refines a bounded map from messages to timers. -/
namespace DevKota.Lab3
open CString Kernel SlotMap Runs

/-- What the component is for: a map of at most `allowed` timers, keyed by message. -/
structure TimerMap where
  entries : List Byte → Option Entry
  allowed : ℤ

noncomputable def Driver.timerMap (d : Driver) : TimerMap := ⟨d.map, d.allowedTimers⟩

/-- The capacity a capacity command asks for: `1` or `2` behind `-m `, and nothing else. -/
def requestedCapacity (buf : UserBuf) (allowed : ℤ) : ℤ :=
  if buf.bytes[3]? = some 49 then 1
  else if buf.bytes[3]? = some 50 then 2
  else allowed

/-- The pid that an event has the driver signal. -/
def signalled (s : State) : Event → Option ℕ
  | .fire k => (s.driver.expire k).map Prod.snd
  | _ => none

/-- The steps of the map, labelled with the events of the driver and the pid that is signalled.
`place` says whose message each timer stands for; seconds and message are read off the text. -/
inductive MapStep (cfg : Config) (now : ℕ) (place : Fin maxTimers → List Byte) (m : TimerMap) :
    Event → TimerMap → Option ℕ → Prop
  | set (current : Task) (buf : UserBuf) (ha : accepted buf) (hc : commandOf buf = .set) :
      MapStep cfg now place m (.write current buf)
        { m with
          entries := assign m.allowed m.entries (setMessage buf)
            (fun e => { e with deadline := now + setSeconds buf*cfg.HZ })
            ⟨now + setSeconds buf*cfg.HZ, current.pid, current.comm⟩ } none
  | capacity (current : Task) (buf : UserBuf) (ha : accepted buf)
      (hc : commandOf buf = .capacity) :
      MapStep cfg now place m (.write current buf)
        { m with allowed := requestedCapacity buf m.allowed } none
  | remove (current : Task) (buf : UserBuf) (ha : accepted buf) (hc : commandOf buf = .remove) :
      MapStep cfg now place m (.write current buf) { m with entries := fun _ => none } none
  -- rejected writes and unknown commands
  | other (current : Task) (buf : UserBuf) (h : accepted buf → commandOf buf = .other) :
      MapStep cfg now place m (.write current buf) m none
  -- the timer's own entry is taken out once its deadline has passed, and its owner is signalled
  | expire (k : Fin maxTimers) (e : Entry) (he : m.entries (place k) = some e)
      (hd : e.deadline ≤ now) :
      MapStep cfg now place m (.fire k) { m with entries := erase m.entries (place k) }
        (some e.ownerPid)
  | tick (ticks : ℕ) : MapStep cfg now place m (.tick ticks) m none
  | read (count pos : ℕ) : MapStep cfg now place m (.read count pos) m none
  | procRead : MapStep cfg now place m .procRead m none

/-- The messages of the slots. -/
def Driver.place (d : Driver) (k : Fin maxTimers) : List Byte := (d.timers k).msg

theorem writeRemove_allowed (d : Driver) : d.writeRemove.allowedTimers = d.allowedTimers := rfl

theorem writeCapacity_allowed (d : Driver) (buf : UserBuf) :
    (d.writeCapacity (pad 150 buf.bytes)).allowedTimers =
      requestedCapacity buf d.allowedTimers := by
  have hbyte (b : Byte) (hb : b ≠ 0) :
      (pad 150 buf.bytes).getD 3 0 = b ↔ buf.bytes[3]? = some b := by
    rw [getD_pad, List.getD_eq_getElem?_getD]
    cases buf.bytes[3]? with
    | none => simp [hb.symm]
    | some c => simp
  unfold Driver.writeCapacity requestedCapacity
  simp only [hbyte 49 (by decide), hbyte 50 (by decide)]
  split_ifs <;> rfl

theorem write_refines (cfg : Config) (now : ℕ) (current : Task) (d : Driver) (buf : UserBuf)
    (h : Inv d) (hf : msgFits buf) :
    Inv (d.mytimerWrite cfg now current buf).1 ∧
      MapStep cfg now d.place d.timerMap (.write current buf)
        (d.mytimerWrite cfg now current buf).1.timerMap none := by
  rw [mytimerWrite_eq]
  by_cases ha : accepted buf
  · rw [if_pos ha]
    cases hc : commandOf buf with
    | remove =>
      obtain ⟨hinv, hmap⟩ := writeRemove_effect d h
      refine ⟨hinv, ?_⟩
      have hr : MapStep cfg now d.place d.timerMap (.write current buf) _ none :=
        MapStep.remove current buf ha hc
      simpa only [Driver.timerMap, hmap, writeRemove_allowed] using hr
    | capacity =>
      obtain ⟨hinv, hmap⟩ := writeCapacity_effect d (pad 150 buf.bytes) h
      refine ⟨hinv, ?_⟩
      have hr : MapStep cfg now d.place d.timerMap (.write current buf) _ none :=
        MapStep.capacity current buf ha hc
      simpa only [Driver.timerMap, hmap, writeCapacity_allowed] using hr
    | set =>
      obtain ⟨hinv, hmap⟩ := writeSet_effect cfg now current d (pad 150 buf.bytes) h (hf ha hc)
      refine ⟨hinv, ?_⟩
      -- what the driver scans is what the text says
      rw [parseSec_eq, parseMsg_eq buf (hf ha hc)] at hmap
      have hr : MapStep cfg now d.place d.timerMap (.write current buf) _ none :=
        MapStep.set current buf ha hc
      simpa only [Driver.timerMap, hmap, writeSet_allowed] using hr
    | other => exact ⟨h, MapStep.other current buf fun _ => hc⟩
  · rw [if_neg ha]
    exact ⟨h, MapStep.other current buf fun ha' => absurd ha' ha⟩

/-- Every event keeps the invariant and is a step of the map. -/
theorem step_refines (cfg : Config) (s t : State) (e : Event) (h : Inv s.driver)
    (hf : MsgFits s e) (hs : step cfg s e = some t) :
    Inv t.driver ∧
      MapStep cfg s.now s.driver.place s.driver.timerMap e t.driver.timerMap (signalled s e) := by
  cases e with
  | tick ticks =>
    obtain rfl := Option.some.inj hs
    exact ⟨h, MapStep.tick ticks⟩
  | write current buf =>
    obtain rfl := Option.some.inj hs
    exact write_refines cfg s.now current s.driver buf h hf
  | fire k =>
    simp only [step] at hs
    split_ifs at hs with hx
    obtain ⟨d', hexp, hinv, hold, hmap, hall⟩ := expire_effect s.driver h k hx.1
    rw [hexp] at hs
    obtain rfl := Option.some.inj hs
    refine ⟨hinv, ?_⟩
    have hpid : signalled s (.fire k) = some (s.driver.timers k).ownerPid := by
      rw [signalled, hexp, Option.map_some]
    have hr : MapStep cfg s.now s.driver.place s.driver.timerMap (.fire k) _ _ :=
      MapStep.expire k (s.driver.timers k).entry hold hx.2
    rw [hpid]
    simpa only [Driver.timerMap, Driver.place, TimerInfo.entry, hmap, hall] using hr
  | read count pos =>
    obtain rfl := Option.some.inj hs
    obtain ⟨hinv, hmap, hall⟩ := mytimerRead_effect cfg s.now s.driver count pos h
    refine ⟨hinv, ?_⟩
    have hr : MapStep cfg s.now s.driver.place s.driver.timerMap (.read count pos) _ none :=
      MapStep.read count pos
    simpa only [Driver.timerMap, signalled, hmap, hall] using hr
  | procRead =>
    obtain rfl := Option.some.inj hs
    exact ⟨h, MapStep.procRead⟩

theorem inv_reach (cfg : Config) (load : ℕ) (s : State)
    (h : Reach (step cfg) MsgFits (loaded load) s) : Inv s.driver :=
  reach_invariant (I := fun s => Inv s.driver)
    (fun s e t hi hf hs => (step_refines cfg s t e hi hf hs).1) h (inv_init load)

theorem map_eq_some (d : Driver) (h : Inv d) (m : List Byte) (e : Entry) :
    d.map m = some e ↔
      ∃ k, (d.timers k).Active ∧ (d.timers k).msg = m ∧ (d.timers k).entry = e := by
  rw [Driver.map, entries_eq_some _ h.keyed]
  constructor
  · intro hslot
    obtain ⟨k, hk⟩ := hslot
    have hk' : (d.timers k).slot = some (m,e) := hk
    have hact : (d.timers k).Active := by
      by_contra hn
      rw [(slot_eq_none _).mpr hn] at hk'
      cases hk'
    rw [slot_of_active _ hact] at hk'
    obtain ⟨hm, he⟩ := Prod.mk.inj (Option.some.inj hk')
    exact ⟨k, hact, hm, he⟩
  · rintro ⟨k, hact, rfl, rfl⟩
    exact ⟨k, slot_of_active _ hact⟩

theorem active_msg_injective (d : Driver) (h : Inv d) (i j : Fin maxTimers)
    (hi : (d.timers i).Active) (hj : (d.timers j).Active)
    (hij : (d.timers i).msg = (d.timers j).msg) : i = j := by
  refine h.keyed i j (d.timers i).msg (d.timers i).entry (d.timers j).entry ?_ ?_
  · exact slot_of_active _ hi
  · rw [hij]
    exact slot_of_active _ hj

theorem occupied_slots (d : Driver) :
    occupied d.slots = Finset.univ.filter fun k => (d.timers k).Active := by
  ext k
  simp only [occupied, Finset.mem_filter, Finset.mem_univ, true_and, Driver.slots,
    Option.isSome_iff_ne_none, ne_eq, slot_eq_none, not_not]

/-- The driver's slots stand for a bounded map at every point of every run, and each event
is a step of that map. -/
theorem driver_refines_bounded_map (cfg : Config) (load : ℕ) (s : State)
    (h : Reach (step cfg) MsgFits (loaded load) s) :
    (∀ m e, s.driver.map m = some e ↔ ∃ k, (s.driver.timers k).Active ∧
      (s.driver.timers k).msg = m ∧ (s.driver.timers k).entry = e) ∧
    (∀ i j, (s.driver.timers i).Active → (s.driver.timers j).Active →
      (s.driver.timers i).msg = (s.driver.timers j).msg → i = j) ∧
    s.driver.numberActiveTimers =
      (Finset.univ.filter fun k => (s.driver.timers k).Active).card ∧
    (0 ≤ s.driver.numberActiveTimers ∧ s.driver.numberActiveTimers ≤ 2) ∧
    (∀ k, (s.driver.timers k).Active ↔ (s.driver.timers k).timer.pending = true) ∧
    (∀ k, (s.driver.timers k).Active →
      (s.driver.timers k).timer.expires = jiffies (s.driver.timers k).timer.due) ∧
    (∀ k, (s.driver.timers k).timer.Expired s.now → ∃ t, step cfg s (.fire k) = some t) ∧
    ∀ e t, MsgFits s e → step cfg s e = some t →
      MapStep cfg s.now s.driver.place s.driver.timerMap e t.driver.timerMap (signalled s e) := by
  have hinv := inv_reach cfg load s h
  have hcount := hinv.count
  have hle := occupied_card_le s.driver.slots
  refine ⟨map_eq_some s.driver hinv, active_msg_injective s.driver hinv, ?_, ⟨by omega, ?_⟩,
    fun k => (hinv.slot k).active_iff_pending, fun k hk => ?_, fun k hk => ?_, fun e t hf hs =>
      (step_refines cfg s t e hinv hf hs).2⟩
  · rw [hcount, occupied_slots]
  · change (occupied s.driver.slots).card ≤ 2 at hle
    omega
  · exact (hinv.slot k).expires ((hinv.slot k).active_iff_pending.mp hk)
  · obtain ⟨d', hexp, -⟩ := expire_effect s.driver hinv k hk.1
    exact ⟨⟨s.now, d'⟩, by simp only [step, if_pos hk, hexp, Option.map_some]⟩

set_option maxRecDepth 8192 in
/-- Two timers, an update by another caller, an expiry, and one that is due: its owner will be
signalled. -/
theorem driver_refines_bounded_map_run :
    ∃ s, Reach (step sampleConfig) MsgFits (loaded 0) s ∧ s.driver.numberActiveTimers = 1 ∧
      s.driver.map (ascii "bob") = some ⟨900, 7, ascii "ktimer"⟩ ∧
      (∃ t, step sampleConfig s (.fire 0) = some t ∧ MapStep sampleConfig 900 s.driver.place
        s.driver.timerMap (.fire 0) t.driver.timerMap (some 7)) ∧
      ∀ e t, MsgFits s e → step sampleConfig s e = some t →
        MapStep sampleConfig 900 s.driver.place s.driver.timerMap e t.driver.timerMap
          (signalled s e) := by
  obtain ⟨s, hs, hp⟩ := exists_reach_of_run (step sampleConfig) (loaded 0) msgFits_of_check
    [sampleWrite 7 (by decide) "-m 2 x", sampleWrite 7 (by decide) "-s 5 bob",
      sampleWrite 8 (by decide) "-s 6 alice", .tick 100, sampleWrite 9 (by decide) "-s 8 bob",
      .tick 500, .fire 1, .tick 300]
    (fun s => s.now = 900 ∧ s.driver.numberActiveTimers = 1 ∧ (s.driver.timers 0).Active ∧
      (s.driver.timers 0).msg = ascii "bob" ∧ (s.driver.timers 0).timer.due = 900 ∧
      (s.driver.timers 0).ownerPid = 7 ∧ (s.driver.timers 0).command = ascii "ktimer" ∧
      (step sampleConfig s (.fire 0)).isSome ∧ signalled s (.fire 0) = some 7)
    (by decide)
  have h := driver_refines_bounded_map sampleConfig 0 s hs
  obtain ⟨hnow, hn, hact, hm, hdue, hpid, hcmd, hfire, hsig⟩ := of_decide_eq_true hp
  obtain ⟨t, ht⟩ := Option.isSome_iff_exists.mp hfire
  have hall := h.2.2.2.2.2.2.2
  rw [hnow] at hall
  refine ⟨s, hs, hn, (h.1 _ _).mpr ⟨0, hact, hm, ?_⟩, ⟨t, ht, hsig ▸ hall (.fire 0) t trivial ht⟩,
    hall⟩
  rw [TimerInfo.entry, hdue, hpid, hcmd]

end DevKota.Lab3
