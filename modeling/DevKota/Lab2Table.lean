import DevKota.Lab2Resize
import DevKota.SlotMap

/-! Between resizes the table of the lab2 driver is a bounded map from messages to deadlines. -/
namespace DevKota.Lab2
open CString Kernel SlotMap Runs

/-- `g_timers[i]`. -/
def Driver.gTimer (d : Driver) (i : ℕ) : Option MsgTimer := d.gTimers.bind fun t => d.slot t i

/-- What the timer at an index stands for: nothing when it is free, else its message and its
deadline. -/
def Driver.entry (d : Driver) (i : ℕ) : Option (List Byte × ℕ) :=
  (d.gTimer i).bind fun s =>
    if s.Active then (d.deref s.message).map fun m => (m, s.timer.due) else none

def Driver.entryTable (d : Driver) (n : ℕ) : SlotMap.Table n (List Byte) ℕ := fun i => d.entry i

/-- The map that a table of `n` timers stands for. -/
noncomputable def Driver.map (d : Driver) (n : ℕ) : List Byte → Option ℕ :=
  entries (d.entryTable n)

/-- The deadline of a timer that is set to expire in `seconds`. -/
def deadline (cfg : Config) (now : ℕ) (seconds : ℤ) : ℕ :=
  dueOf now (jiffies now + BitVec.ofInt 32 seconds * BitVec.ofNat 32 cfg.HZ)

/-- What set commands and firings preserve of a table with `n` timers: the slots in use are
armed, their messages can be read, and no message is held twice. -/
structure Tabled (d : Driver) (n : ℕ) : Prop where
  inv : Inv d
  count : d.gNumTimers = n
  table : d.gTimers ≠ none
  bound (i : ℕ) (s : MsgTimer) : d.gTimer i = some s → i < n
  armed (i : ℕ) (s : MsgTimer) : d.gTimer i = some s → s.Active → s.timer.pending = true
  message (i : ℕ) (s : MsgTimer) : d.gTimer i = some s → s.Active → s.message ≠ .null
  keyed : Keyed (d.entryTable n)

section Entries
variable (d : Driver) (n : ℕ)

theorem gTimer_slot (t i : ℕ) (ht : d.gTimers = some t) : d.gTimer i = d.slot t i := by
  rw [Driver.gTimer, ht, Option.bind_some]

theorem gTimer_some (i : ℕ) (s : MsgTimer) (h : d.gTimer i = some s) :
    ∃ t, d.gTimers = some t ∧ d.slot t i = some s :=
  Option.bind_eq_some_iff.mp h

theorem tabled_deref (h : Tabled d n) (i : ℕ) (s : MsgTimer) (hs : d.gTimer i = some s)
    (ha : s.Active) : ∃ id text, s.message = .block id text ∧ d.deref s.message = some text := by
  obtain ⟨t, -, hslot⟩ := gTimer_some d i s hs
  rcases h.inv.message t i s hslot ha with hnull | ⟨id, text, hb, hlive, -⟩
  · exact absurd hnull (h.message i s hs ha)
  · exact ⟨id, text, hb, by rw [hb, Driver.deref, if_neg hlive]⟩

theorem gTimer_exists (h : Tabled d n) (i : ℕ) (hi : i < n) : ∃ s, d.gTimer i = some s := by
  obtain ⟨t, ht⟩ := Option.ne_none_iff_exists'.mp h.table
  obtain ⟨s, hs⟩ := h.inv.table t ht i (by rw [h.count]; omega)
  exact ⟨s, by rw [gTimer_slot d t i ht, hs]⟩

theorem entry_eq_some (i : ℕ) (m : List Byte) (due : ℕ) :
    d.entry i = some (m,due) ↔
      ∃ s, d.gTimer i = some s ∧ s.Active ∧ d.deref s.message = some m ∧ s.timer.due = due := by
  unfold Driver.entry
  constructor
  · intro h
    obtain ⟨s, hs, h⟩ := Option.bind_eq_some_iff.mp h
    split_ifs at h with ha
    obtain ⟨text, htext, h⟩ := Option.map_eq_some_iff.mp h
    obtain ⟨rfl, rfl⟩ := Prod.mk.inj h
    exact ⟨s, hs, ha, htext, rfl⟩
  · rintro ⟨s, hs, ha, hm, rfl⟩
    rw [hs, Option.bind_some, if_pos ha, hm, Option.map_some]

/-- A slot of the table stands for nothing exactly when it is free. -/
theorem entry_eq_none (h : Tabled d n) (i : ℕ) (s : MsgTimer) (hs : d.gTimer i = some s) :
    d.entry i = none ↔ ¬ s.Active := by
  unfold Driver.entry
  rw [hs, Option.bind_some]
  split_ifs with ha
  · obtain ⟨id, text, -, hm⟩ := tabled_deref d n h i s hs ha
    simp [hm, ha]
  · exact ⟨fun _ => ha, fun _ => rfl⟩

theorem map_eq_some (h : Tabled d n) (m : List Byte) (due : ℕ) :
    d.map n m = some due ↔
      ∃ i s, d.gTimer i = some s ∧ s.Active ∧ d.deref s.message = some m ∧ s.timer.due = due := by
  rw [Driver.map, entries_eq_some _ h.keyed]
  constructor
  · intro hslot
    obtain ⟨i, hi⟩ := hslot
    exact ⟨i, (entry_eq_some d i m due).mp hi⟩
  · intro hslot
    obtain ⟨i, s, hs, hrest⟩ := hslot
    exact ⟨⟨i, h.bound i s hs⟩, (entry_eq_some d i m due).mpr ⟨s, hs, hrest⟩⟩

theorem map_eq_none (h : Tabled d n) (m : List Byte) :
    d.map n m = none ↔
      ∀ i s, d.gTimer i = some s → s.Active → d.deref s.message ≠ some m := by
  constructor
  · intro hnone i s hs ha hm
    rw [(map_eq_some d n h m s.timer.due).mpr ⟨i, s, hs, ha, hm, rfl⟩] at hnone
    cases hnone
  · intro hall
    by_contra hne
    obtain ⟨due, hdue⟩ := Option.ne_none_iff_exists'.mp hne
    obtain ⟨i, s, hs, ha, hm, -⟩ := (map_eq_some d n h m due).mp hdue
    exact hall i s hs ha hm

theorem size_map (h : Tabled d n) : size (d.map n) = (occupied (d.entryTable n)).card :=
  size_entries _ h.keyed

/-- There is room exactly when a slot is free. -/
theorem size_lt_iff (h : Tabled d n) :
    size (d.map n) < n ↔ ∃ i s, d.gTimer i = some s ∧ ¬ s.Active := by
  rw [size_map d n h]
  constructor
  · intro hlt
    obtain ⟨i, hi⟩ := exists_free _ hlt
    obtain ⟨s, hs⟩ := gTimer_exists d n h i i.isLt
    exact ⟨i, s, hs, (entry_eq_none d n h i s hs).mp hi⟩
  · intro hfree
    obtain ⟨i, s, hs, ha⟩ := hfree
    exact occupied_card_lt _ ⟨i, h.bound i s hs⟩ ((entry_eq_none d n h i s hs).mpr ha)

end Entries

section Effects
variable (cfg : Config) (now : ℕ) (d d' : Driver) (n : ℕ)

theorem entryTable_store (i : Fin n) (o : Option (List Byte × ℕ))
    (h : ∀ j : ℕ, d'.entry j = if j = i then o else d.entry j) :
    d'.entryTable n = Function.update (d.entryTable n) i o := by
  funext j
  rw [Function.update_apply]
  change d'.entry j = if j = i then o else d.entry j
  rw [h]
  simp only [Fin.ext_iff]

theorem gTimer_store (t i : ℕ) (s : MsgTimer) (ht : d.gTimers = some t)
    (ht' : d'.gTimers = d.gTimers)
    (hs : ∀ t' i', d'.slot t' i' = if t' = t ∧ i' = i then some s else d.slot t' i') (j : ℕ) :
    d'.gTimer j = if j = i then some s else d.gTimer j := by
  rw [gTimer_slot d' t j (ht'.trans ht), gTimer_slot d t j ht, hs]
  simp only [true_and]

/-- A slot of the table is stored, with a message that keeps the table keyed. -/
theorem tabled_store (h : Tabled d n) (hinv : Inv d') (hcount : d'.gNumTimers = d.gNumTimers)
    (htable : d'.gTimers = d.gTimers) (i : ℕ) (s : MsgTimer) (hi : i < n)
    (hs : ∀ j, d'.gTimer j = if j = i then some s else d.gTimer j)
    (harmed : s.Active → s.timer.pending = true) (hmessage : s.Active → s.message ≠ .null)
    (hkeyed : Keyed (d'.entryTable n)) : Tabled d' n where
  inv := hinv
  count := hcount.trans h.count
  table := by rw [htable]; exact h.table
  bound j s' hs' := by
    rw [hs] at hs'
    split_ifs at hs' with hj
    · exact hj ▸ hi
    · exact h.bound j s' hs'
  armed j s' hs' ha := by
    rw [hs] at hs'
    split_ifs at hs' with hj
    · obtain rfl := Option.some.inj hs'
      exact harmed ha
    · exact h.armed j s' hs' ha
  message j s' hs' ha := by
    rw [hs] at hs'
    split_ifs at hs' with hj
    · obtain rfl := Option.some.inj hs'
      exact hmessage ha
    · exact h.message j s' hs' ha
  keyed := hkeyed

/-- Filling a slot puts the message and its deadline in that entry, and in no other. -/
theorem filled_entry (h : Tabled d n) (t i : ℕ) (s : MsgTimer) (seconds : ℤ) (m : List Byte)
    (ht : d.gTimers = some t) (hslot : d.slot t i = some s)
    (hd : d' = { d.setSlot t i (s.filled cfg now d.nextBlock seconds m) with
      nextBlock := d.nextBlock + 1 }) (j : ℕ) :
    d'.entry j = if j = i then some (m, deadline cfg now seconds) else d.entry j := by
  have htable : d'.gTimers = d.gTimers := by rw [hd]; rfl
  have hderef (p : Pointer) : d'.deref p = d.deref p := by rw [hd]; rfl
  have hgTimer := gTimer_store d d' t i (s.filled cfg now d.nextBlock seconds m) ht htable
    (inv_setSlot_slot d d' t i s _ hslot (by rw [hd]))
  have hact : (s.filled cfg now d.nextBlock seconds m).Active := rfl
  have hnew := deref_filled cfg now d h.inv s seconds m
  unfold Driver.entry
  rw [hgTimer]
  simp only [hderef]
  by_cases hj : j = i
  · rw [if_pos hj, if_pos hj, Option.bind_some, if_pos hact, hnew]
    rfl
  · rw [if_neg hj, if_neg hj]

/-- A message that no counted slot holds is not in the map. -/
theorem map_absent (h : Tabled d n) (t : ℕ) (m : List Byte) (ht : d.gTimers = some t)
    (hnone : ∀ (j : ℕ) (s' : MsgTimer), (j:ℤ) < d.gNumTimers → d.slot t j = some s' →
      s'.Active → d.deref s'.message ≠ some m) : d.map n m = none := by
  apply (map_eq_none d n h m).mpr
  intro j s' hs'
  have hj := h.bound j s' hs'
  rw [gTimer_slot d t j ht] at hs'
  exact hnone j s' (by rw [h.count]; omega) hs'

/-- A message set in the slot that was chosen for it is assigned in the map. -/
theorem filled_assigns (h : Tabled d n) (t i : ℕ) (s : MsgTimer) (seconds : ℤ) (m : List Byte)
    (hc : Chosen d t i s m) (hinv : Inv d')
    (hd : d' = { d.setSlot t i (s.filled cfg now d.nextBlock seconds m) with
      nextBlock := d.nextBlock + 1 }) :
    Tabled d' n ∧ d'.map n = assign n (d.map n) m (fun _ => deadline cfg now seconds)
      (deadline cfg now seconds) := by
  have hi : i < n := by
    have := hc.index
    rw [h.count] at this
    omega
  have hs : d.gTimer i = some s := by rw [gTimer_slot d t i hc.table, hc.slot]
  have hcount : d'.gNumTimers = d.gNumTimers := by rw [hd]; rfl
  have htable : d'.gTimers = d.gTimers := by rw [hd]; rfl
  have hgTimer := gTimer_store d d' t i (s.filled cfg now d.nextBlock seconds m) hc.table htable
    (inv_setSlot_slot d d' t i s _ hc.slot (by rw [hd]))
  have hupdate := entryTable_store d d' n ⟨i,hi⟩ _
    (filled_entry cfg now d d' n h t i s seconds m hc.table hc.slot hd)
  have hstore (hkeyed : Keyed (d'.entryTable n)) : Tabled d' n :=
    tabled_store d d' n h hinv hcount htable i _ hi hgTimer (fun _ => rfl)
      (fun _ hnull => by cases hnull) hkeyed
  -- the slot held the message already, or it was free and no slot held it
  rcases hc.choice with ⟨ha, hm⟩ | ⟨ha, hnone⟩
  · have hold : d.entryTable n ⟨i,hi⟩ = some (m, s.timer.due) :=
      (entry_eq_some d i m _).mpr ⟨s, hs, ha, hm, rfl⟩
    have hvalue := update_value (d.entryTable n) h.keyed ⟨i,hi⟩ m s.timer.due
      (deadline cfg now seconds) hold
    rw [← hupdate] at hvalue
    have hpresent : d.map n m = some s.timer.due :=
      (map_eq_some d n h m _).mpr ⟨i, s, hs, ha, hm, rfl⟩
    refine ⟨hstore hvalue.1, ?_⟩
    rw [assign, hpresent]
    exact hvalue.2.1
  · have hfree : d.entryTable n ⟨i,hi⟩ = none := (entry_eq_none d n h i s hs).mpr ha
    have habsent := map_absent d n h t m hc.table hnone
    have hinsert := update_insert (d.entryTable n) h.keyed ⟨i,hi⟩ m (deadline cfg now seconds)
      hfree habsent
    rw [← hupdate] at hinsert
    have hroom : (size (d.map n) : ℤ) < n := by
      exact_mod_cast (size_lt_iff d n h).mpr ⟨i, s, hs, ha⟩
    refine ⟨hstore hinsert.1, ?_⟩
    simp only [assign, habsent, if_pos hroom]
    exact hinsert.2.1

theorem full_active (h : Tabled d n) (m : List Byte)
    (hf : d.findAvailableTimer m = some (-ENOMEM)) (i : ℕ) (s : MsgTimer)
    (hs : d.gTimer i = some s) : s.Active := by
  obtain ⟨slots, hcur⟩ := current_defined d h.inv fun _ => h.table
  obtain ⟨t, ht, hslot⟩ := gTimer_some d i s hs
  have hin : (i:ℤ) < d.gNumTimers := by
    have := h.bound i s hs
    rw [h.count]
    omega
  exact search_full d m slots hcur hf s (slot_mem_current d slots hcur t i s ht hin hslot)

theorem tabled_safe (h : Tabled d n) : Safe cfg d := by
  apply (safe_iff_intact cfg d h.inv).mpr
  refine ⟨fun _ => h.table, ?_⟩
  intro t i s ht _ hs
  exact h.message i s (by rw [gTimer_slot d t i ht, hs])

/-- A set command succeeds and is the map's bounded assignment; one that is not carried out
changes nothing. -/
theorem write_assigns (h : Tabled d n) (buf : UserBuf) (seconds : ℤ) (m : List Byte)
    (hreq : requestOf buf = .set seconds m) :
    ∃ d', d.timerWrite cfg now buf true = some (d', (buf.bytes.length : ℤ)) ∧ Tabled d' n ∧
      d'.map n = assign n (d.map n) m (fun _ => deadline cfg now seconds)
        (deadline cfg now seconds) ∧ d'.log = d.log ∧
      (d.map n m = none → ¬ size (d.map n) < n → d' = d) := by
  obtain ⟨index, hf⟩ := Option.ne_none_iff_exists'.mp ((tabled_safe cfg d n h).search m)
  rw [timerWrite_eq, hreq, Driver.perform, hf, Option.bind_some]
  rcases findAvailableTimer_cases d m index hf with ⟨t, i, s, rfl, hc⟩ | ⟨rfl, hnone⟩
  · rw [if_pos (by omega), setTimer_chosen cfg now d true t i s m m seconds hc]
    have hr : ¬ (if s.timer.pending then 1 else 0 : ℤ) < 0 := by split_ifs <;> decide
    have he : Effect cfg now d true (.set seconds m) _ _ :=
      Effect.filled seconds m t i s _ rfl hf hc (not_lt.mp hr)
    obtain ⟨htabled, hmap⟩ := filled_assigns cfg now d _ n h t i s seconds m hc
      (effect_inv cfg now d _ true _ _ h.inv he) rfl
    refine ⟨_, ?_, htabled, hmap, rfl, ?_⟩
    · rw [if_pos rfl, Option.map_some, returned, if_neg hr]
    · -- a present message or a free slot rules this out
      intro habsent hfull
      rcases hc.choice with ⟨ha, hm⟩ | ⟨ha, -⟩
      · exact absurd hm ((map_eq_none d n h m).mp habsent i s
          (by rw [gTimer_slot d t i hc.table, hc.slot]) ha)
      · exact absurd ((size_lt_iff d n h).mpr
          ⟨i, s, by rw [gTimer_slot d t i hc.table, hc.slot], ha⟩) hfull
  · -- every slot is in use, and none has the message
    rw [if_neg (by decide)]
    obtain ⟨t, ht⟩ := Option.ne_none_iff_exists'.mp h.table
    have habsent := map_absent d n h t m ht fun j s' => hnone t j s' ht
    have hfull : ¬ size (d.map n) < n := by
      intro hlt
      obtain ⟨i, s, hs, ha⟩ := (size_lt_iff d n h).mp hlt
      exact ha (full_active d n h m hf i s hs)
    refine ⟨d, rfl, h, ?_, rfl, fun _ _ => rfl⟩
    have hfull' : ¬ (size (d.map n) : ℤ) < n := by exact_mod_cast hfull
    simp only [assign, habsent, if_neg hfull']

/-- What `printk` shows for a slot's message. -/
def Driver.printed (d : Driver) (s : MsgTimer) : Option (List Byte) :=
  match s.message with
  | .null => some (ascii "(null)")
  | p => d.deref p

/-- An armed timer can fire, and what is printed is logged. -/
theorem expire_defined (h : Inv d) (t i : ℕ) (s : MsgTimer) (hs : d.slot t i = some s)
    (hp : s.timer.pending = true) :
    ∃ d' text, d.expire t i = some d' ∧ d.printed s = some text ∧ d'.log = d.log ++ [text] := by
  have ha : s.timer.function = some Callback.timerCb := h.armed t i s hs hp
  have hs' := slot_setSlot_self d t i s { s with timer := s.timer.delTimer } hs
  simp only [Driver.expire, Driver.timerCb, hs, Option.bind_some, ha, hs', Driver.printed]
  rcases h.message t i s hs ha with hnull | ⟨id, text, hb, hlive, -⟩
  · simp only [hnull]
    exact ⟨_, _, rfl, rfl, rfl⟩
  · have hfreed (d : Driver) (x : MsgTimer) : (d.setSlot t i x).freed = d.freed := rfl
    simp only [hb, Driver.deref, Driver.kfree, hfreed, if_neg hlive, Option.bind_some]
    exact ⟨_, text, rfl, rfl, rfl⟩

/-- A firing frees no message of another slot that is in use. -/
theorem expire_deref (h : Inv d) (t i : ℕ) (he : d.expire t i = some d') (t' i' : ℕ)
    (s' : MsgTimer) (hs' : d.slot t' i' = some s') (ha' : s'.Active)
    (hne : ¬ (t' = t ∧ i' = i)) : d'.deref s'.message = d.deref s'.message := by
  obtain ⟨s, hs, ha, -, -, -, -, hfreed⟩ := expire_cases d d' t i he
  rcases hfreed with ⟨-, heq⟩ | ⟨id, text, hm, -, heq⟩
  · unfold Driver.deref
    rw [heq]
  · cases hm' : s'.message with
    | junk => rfl
    | null => rfl
    | block id' text' =>
      have hid : id' ≠ id := by
        rintro rfl
        exact hne (h.distinct t i s t' i' s' id' text text' hs ha hm hs' ha' hm')
      simp only [Driver.deref, heq, List.mem_cons, hid, false_or]

theorem entry_of_gTimer (j : ℕ) (h : d'.gTimer j = d.gTimer j)
    (hderef : ∀ s, d.gTimer j = some s → s.Active → d'.deref s.message = d.deref s.message) :
    d'.entry j = d.entry j := by
  unfold Driver.entry
  rw [h]
  cases hs : d.gTimer j with
  | none => rfl
  | some s =>
    simp only [Option.bind_some]
    split_ifs with ha
    · rw [hderef s hs ha]
    · rfl

/-- A firing in the table takes out exactly the entry that fired, and logs its message. -/
theorem fire_erases (h : Tabled d n) (t i : ℕ) (s : MsgTimer) (ht : d.gTimers = some t)
    (hs : d.slot t i = some s) (hp : s.timer.pending = true) :
    ∃ d' m, d.expire t i = some d' ∧ Tabled d' n ∧ d.deref s.message = some m ∧
      d.map n m = some s.timer.due ∧ d'.map n = erase (d.map n) m ∧ d'.log = d.log ++ [m] := by
  obtain ⟨d', text, he, hprinted, hlog⟩ := expire_defined d h.inv t i s hs hp
  have ha := h.inv.armed t i s hs hp
  have hgs : d.gTimer i = some s := by rw [gTimer_slot d t i ht, hs]
  have hi := h.bound i s hgs
  obtain ⟨id, m, hb, hm⟩ := tabled_deref d n h i s hgs ha
  obtain rfl : text = m := by
    simp only [Driver.printed, hb] at hprinted
    rw [← hb, hm] at hprinted
    exact (Option.some.inj hprinted).symm
  obtain ⟨s0, hs0, -, hslots, hcount, htable, -, -⟩ := expire_cases d d' t i he
  rw [hs] at hs0
  obtain rfl := Option.some.inj hs0
  have hgTimer := gTimer_store d d' t i s.fired ht htable hslots
  -- the message that is freed was that slot's alone, so the other entries stay
  have hentry (j : ℕ) : d'.entry j = if j = i then none else d.entry j := by
    by_cases hj : j = i
    · rw [if_pos hj, Driver.entry, hgTimer, if_pos hj, Option.bind_some, if_neg (fired_idle s)]
    · rw [if_neg hj]
      apply entry_of_gTimer
      · rw [hgTimer, if_neg hj]
      · intro s' hs' ha'
        rw [gTimer_slot d t j ht] at hs'
        exact expire_deref d d' h.inv t i he t j s' hs' ha' fun hti => hj hti.2
  have hold : d.entryTable n ⟨i,hi⟩ = some (text, s.timer.due) :=
    (entry_eq_some d i text _).mpr ⟨s, hgs, ha, hm, rfl⟩
  have hfree := update_free (d.entryTable n) h.keyed ⟨i,hi⟩ text s.timer.due hold
  rw [← entryTable_store d d' n ⟨i,hi⟩ _ hentry] at hfree
  refine ⟨d', text, he, ?_, hm, (map_eq_some d n h text _).mpr ⟨i, s, hgs, ha, hm, rfl⟩,
    hfree.2.1, hlog⟩
  exact tabled_store d d' n h (expire_inv d d' t i h.inv he) hcount htable i s.fired hi hgTimer
    (fun hact => by cases hact) (fun hact => by cases hact) hfree.1

/-- A timer left over from an earlier table fires without a trace in this one. -/
theorem fire_keeps (h : Tabled d n) (t i : ℕ) (s : MsgTimer) (ht : d.gTimers ≠ some t)
    (hs : d.slot t i = some s) (hp : s.timer.pending = true) :
    ∃ d' text, d.expire t i = some d' ∧ Tabled d' n ∧ d.printed s = some text ∧
      d'.map n = d.map n ∧ d'.log = d.log ++ [text] := by
  obtain ⟨d', text, he, hprinted, hlog⟩ := expire_defined d h.inv t i s hs hp
  obtain ⟨s0, -, -, hslots, hcount, htable, -, -⟩ := expire_cases d d' t i he
  obtain ⟨t', ht'⟩ := Option.ne_none_iff_exists'.mp h.table
  have hne : t' ≠ t := fun heq => ht (heq ▸ ht')
  have hgTimer (j : ℕ) : d'.gTimer j = d.gTimer j := by
    rw [gTimer_slot d' t' j (htable.trans ht'), gTimer_slot d t' j ht', hslots,
      if_neg fun hti => hne hti.1]
  have hentries : d'.entryTable n = d.entryTable n := by
    funext j
    apply entry_of_gTimer d d' j (hgTimer j)
    intro s' hs' ha'
    rw [gTimer_slot d t' j ht'] at hs'
    exact expire_deref d d' h.inv t i he t' j s' hs' ha' fun hti => hne hti.1
  refine ⟨d', text, he, ?_, hprinted, by rw [Driver.map, hentries]; rfl, hlog⟩
  exact
    { inv := expire_inv d d' t i h.inv he
      count := hcount.trans h.count
      table := by rw [htable]; exact h.table
      bound := fun j s' hs' => h.bound j s' (by rw [← hgTimer, hs'])
      armed := fun j s' hs' => h.armed j s' (by rw [← hgTimer, hs'])
      message := fun j s' hs' => h.message j s' (by rw [← hgTimer, hs'])
      keyed := by rw [hentries]; exact h.keyed }

theorem checkForRoom_eq (h : Tabled d n) :
    d.checkForRoom = some (if size (d.map n) < n then 49 else 48) := by
  obtain ⟨slots, hcur⟩ := current_defined d h.inv fun _ => h.table
  have hany : (slots.any (·.timer.function.isNone)) = true ↔ size (d.map n) < n := by
    rw [size_lt_iff d n h, List.any_eq_true]
    have hnone (s : MsgTimer) : s.timer.function.isNone = true ↔ ¬ s.Active := by
      rw [← isSome_function]
      cases s.timer.function <;> simp
    constructor
    · intro hex
      obtain ⟨s, hs, hf⟩ := hex
      obtain ⟨t, i, ht, -, hslot⟩ := current_slot d slots hcur s hs
      exact ⟨i, s, by rw [gTimer_slot d t i ht, hslot], (hnone s).mp hf⟩
    · intro hex
      obtain ⟨i, s, hs, ha⟩ := hex
      obtain ⟨t, ht, hslot⟩ := gTimer_some d i s hs
      have hi := h.bound i s hs
      exact ⟨s, slot_mem_current d slots hcur t i s ht (by rw [h.count]; omega) hslot,
        (hnone s).mpr ha⟩
  rw [Driver.checkForRoom, hcur, Option.map_some]
  simp only [hany]

end Effects

/-- The table stands for a map of at most `n` entries, and what is written and what fires acts
on it as on one. -/
structure Represents (cfg : Config) (n : ℕ) (s : State) : Prop where
  slot (i : ℕ) : i < n → ∃ x, s.driver.gTimer i = some x ∧
    (x.timer.function ≠ none ↔ x.timer.pending = true) ∧
    (x.timer.function ≠ none →
      ∃ id m, x.message = .block id m ∧ s.driver.deref x.message = some m)
  distinct (i j : ℕ) (x y : MsgTimer) (m : List Byte) :
    s.driver.gTimer i = some x → x.timer.function ≠ none → s.driver.deref x.message = some m →
      s.driver.gTimer j = some y → y.timer.function ≠ none →
        s.driver.deref y.message = some m → i = j
  map (m : List Byte) (due : ℕ) : s.driver.map n m = some due ↔
    ∃ i x, s.driver.gTimer i = some x ∧ x.timer.function ≠ none ∧
      s.driver.deref x.message = some m ∧ x.timer.due = due
  bounded : size (s.driver.map n) ≤ n
  room : s.driver.checkForRoom = some (if size (s.driver.map n) < n then 49 else 48)
  -- a present message has its deadline changed, an absent one is added if there is room
  write (buf : UserBuf) (seconds : ℤ) (m : List Byte) : buf.bytes.length ≤ 127 →
    requestOf buf = .set seconds m →
    ∃ d', s.driver.timerWrite cfg s.now buf true = some (d', (buf.bytes.length : ℤ)) ∧
      d'.map n = assign n (s.driver.map n) m (fun _ => deadline cfg s.now seconds)
        (deadline cfg s.now seconds) ∧ d'.log = s.driver.log ∧
      (s.driver.map n m = none → ¬ size (s.driver.map n) < n → d' = s.driver)
  fire (t i : ℕ) (x : MsgTimer) : s.driver.gTimers = some t → s.driver.slot t i = some x →
    x.timer.Expired s.now →
      ∃ d' m, step cfg s (.fire t i) = some { s with driver := d' } ∧
        s.driver.deref x.message = some m ∧ s.driver.map n m = some x.timer.due ∧
        d'.map n = erase (s.driver.map n) m ∧ d'.log = s.driver.log ++ [m]
  -- a timer left over from an earlier table
  stale (t i : ℕ) (x : MsgTimer) : s.driver.gTimers ≠ some t → s.driver.slot t i = some x →
    x.timer.Expired s.now →
      ∃ d' text, step cfg s (.fire t i) = some { s with driver := d' } ∧
        s.driver.printed x = some text ∧ d'.map n = s.driver.map n ∧
        d'.log = s.driver.log ++ [text]

section Run
variable (cfg : Config) (n : ℕ)

theorem function_ne_none (x : MsgTimer) : x.timer.function ≠ none ↔ x.Active := by
  rw [← isSome_function, Option.isSome_iff_ne_none]

theorem step_fire (s : State) (t i : ℕ) (x : MsgTimer) (d' : Driver)
    (hs : s.driver.slot t i = some x) (hx : x.timer.Expired s.now)
    (he : s.driver.expire t i = some d') :
    step cfg s (.fire t i) = some { s with driver := d' } := by
  rw [step, if_pos (by rw [hs]; exact decide_eq_true hx), he, Option.map_some]

theorem represents_of_tabled (s : State) (h : Tabled s.driver n) : Represents cfg n s where
  slot i hi := by
    obtain ⟨x, hx⟩ := gTimer_exists s.driver n h i hi
    obtain ⟨t, -, hslot⟩ := gTimer_some s.driver i x hx
    refine ⟨x, hx, ?_, ?_⟩
    · rw [function_ne_none]
      exact ⟨h.armed i x hx, h.inv.armed t i x hslot⟩
    · rw [function_ne_none]
      exact tabled_deref s.driver n h i x hx
  distinct i j x y m hx hax hmx hy hay hmy := by
    rw [function_ne_none] at hax hay
    have hi := (entry_eq_some s.driver i m _).mpr ⟨x, hx, hax, hmx, rfl⟩
    have hj := (entry_eq_some s.driver j m _).mpr ⟨y, hy, hay, hmy, rfl⟩
    have hij := h.keyed ⟨i, h.bound i x hx⟩ ⟨j, h.bound j y hy⟩ m _ _ hi hj
    exact congrArg Fin.val hij
  map m due := by
    rw [map_eq_some s.driver n h]
    simp only [function_ne_none]
  bounded := by
    rw [size_map s.driver n h]
    exact occupied_card_le _
  room := checkForRoom_eq s.driver n h
  write buf seconds m _ hreq := by
    obtain ⟨d', hd, -, hrest⟩ := write_assigns cfg s.now s.driver n h buf seconds m hreq
    exact ⟨d', hd, hrest⟩
  fire t i x ht hs hx := by
    obtain ⟨d', m, he, -, hrest⟩ := fire_erases s.driver n h t i x ht hs hx.1
    exact ⟨d', m, step_fire cfg s t i x d' hs hx he, hrest⟩
  stale t i x ht hs hx := by
    obtain ⟨d', text, he, -, hrest⟩ := fire_keeps s.driver n h t i x ht hs hx.1
    exact ⟨d', text, step_fire cfg s t i x d' hs hx he, hrest⟩

/-- Set commands of at most 127 bytes whose allocations succeed, firings, and passing time. -/
def SetsOnly (_ : State) : Event → Prop
  | .write buf alloc =>
    alloc = true ∧ buf.bytes.length ≤ 127 ∧ ∃ seconds m, requestOf buf = .set seconds m
  | _ => True

theorem step_tabled (s s' : State) (e : Event) (h : Tabled s.driver n) (hg : SetsOnly s e)
    (hs : step cfg s e = some s') : Tabled s'.driver n := by
  rcases step_cases cfg s s' e hs with
    ⟨ticks, -, heq⟩ | ⟨buf, alloc, r, rfl, -⟩ | ⟨t, i, x, rfl, hslot, hx, he⟩
  · rw [heq]
    exact h
  · obtain ⟨rfl, -, seconds, m, hreq⟩ := hg
    obtain ⟨d', hd, htabled, -⟩ := write_assigns cfg s.now s.driver n h buf seconds m hreq
    rw [step, hd] at hs
    obtain rfl := Option.some.inj hs
    exact htabled
  · by_cases ht : s.driver.gTimers = some t
    · obtain ⟨d', m, he', htabled, -⟩ := fire_erases s.driver n h t i x ht hslot hx.1
      rw [he] at he'
      exact Option.some.inj he' ▸ htabled
    · obtain ⟨d', text, he', htabled, -⟩ := fire_keeps s.driver n h t i x ht hslot hx.1
      rw [he] at he'
      exact Option.some.inj he' ▸ htabled

/-- The states in which `create_timers` has just made a table of `n` timers: when the module is
loaded, or by a resize in any state of any run. -/
inductive Made : State → Prop
  | load (now : ℕ) (hn : n = 1) : Made (loaded now true)
  | resize (load : ℕ) (loadAlloc : Bool) (s : State) (d : Driver)
      (hs : Reach (step cfg) (fun _ _ => True) (loaded load loadAlloc) s)
      (hc : s.driver.createTimers n true = some (d, 0)) : Made { s with driver := d }

theorem tabled_withTable (d : Driver) (hinv : Inv (d.withTable n n)) :
    Tabled (d.withTable n n) n := by
  have hfresh (i : ℕ) (s : MsgTimer) (hs : (d.withTable n n).gTimer i = some s) :
      i < n ∧ ¬ s.Active := by
    obtain ⟨t, ht, hs⟩ := gTimer_some _ i s hs
    obtain rfl := Option.some.inj ht
    rcases withTable_slot d n n _ i s hs with ⟨-, hi, rfl⟩ | ⟨hne, -⟩
    · exact ⟨hi, freshSlot_idle.1⟩
    · exact absurd rfl hne
  constructor
  · exact hinv
  · rfl
  · exact fun hnone => by cases hnone
  · exact fun i s hs => (hfresh i s hs).1
  · exact fun i s hs ha => absurd ha (hfresh i s hs).2
  · exact fun i s hs ha => absurd ha (hfresh i s hs).2
  · intro i j m v w hi
    obtain ⟨s, hs, ha, -⟩ := (entry_eq_some _ i m v).mp hi
    exact absurd ha (hfresh i s hs).2

theorem made_tabled (hsize : n*sizeofMsgTimer < 2^32) (s : State) (h : Made cfg n s) :
    Tabled s.driver n := by
  cases h with
  | load now hn =>
    rw [hn]
    exact tabled_withTable 1 ⟨0, none, [], 0, [], []⟩ (inv_init true)
  | resize load loadAlloc s d hs hc =>
    have hexact := kmallocSize_eq n (by omega) (by exact_mod_cast hsize)
    have hslots : kmallocSize n / sizeofMsgTimer = n := by
      rw [sizeofMsgTimer] at hexact ⊢
      omega
    have heq := createTimers_got s.driver n true (Or.inl rfl)
    rw [hc, if_neg (by rw [hexact]; exact lt_irrefl _), hslots] at heq
    obtain rfl := (Prod.mk.inj (Option.some.inj heq)).1
    have hempty : kmallocSize n = 0 → n = 0 := fun hzero => by
      rw [hzero, Nat.zero_div] at hslots
      exact hslots.symm
    exact tabled_withTable n s.driver (effect_inv cfg s.now s.driver _ true _ _
      (inv_reach cfg load loadAlloc s hs) (Effect.newTable n n (Or.inl rfl) (le_refl _) hempty))

end Run

/-- For every size and in every run of set commands and firings, the table is a bounded map. -/
theorem table_refines_bounded_map (cfg : Config) (n : ℕ) (hsize : n*sizeofMsgTimer < 2^32)
    (s0 s : State) (h0 : Made cfg n s0) (h : Reach (step cfg) SetsOnly s0 s) :
    Represents cfg n s := by
  have htabled := reach_invariant (I := fun s => Tabled s.driver n)
    (fun s e t hi hg hs => step_tabled cfg n s t e hi hg hs) h (made_tabled cfg n hsize s0 h0)
  exact represents_of_tabled cfg n s htabled

def setsOnlyCheck (_ : State) : Event → Bool
  | .write buf alloc =>
    match requestOf buf with
    | .set _ _ => alloc && decide (buf.bytes.length ≤ 127)
    | _ => false
  | _ => true

theorem setsOnly_of_check (s : State) (e : Event) (h : setsOnlyCheck s e = true) :
    SetsOnly s e := by
  cases e with
  | write buf alloc =>
    simp only [setsOnlyCheck, SetsOnly] at h ⊢
    generalize requestOf buf = req at h ⊢
    cases req with
    | set seconds m =>
      rw [Bool.and_eq_true, decide_eq_true_eq] at h
      exact ⟨h.1, h.2, seconds, m, rfl⟩
    | _ => cases h
  | _ => trivial

set_option maxRecDepth 8192 in
/-- Two timers are set, one of them again, one fires. -/
theorem table_refines_bounded_map_run : ∃ s0 s, Made sampleConfig 2 s0 ∧
    Reach (step sampleConfig) SetsOnly s0 s ∧ s.driver.log = [ascii "billy"] ∧
      Represents sampleConfig 2 s := by
  have hmade : Made sampleConfig 2 ⟨0, (Driver.myModuleInit true).withTable 2 2⟩ :=
    Made.resize 0 true (loaded 0 true) _ (reach_refl _) (by decide)
  obtain ⟨s, hs, hp⟩ := exists_reach_of_run (step sampleConfig)
    ⟨0, (Driver.myModuleInit true).withTable 2 2⟩ setsOnly_of_check
    [sampleWrite "300 dakota\n" true, sampleWrite "5 billy\n" true,
      sampleWrite "400 dakota\n" true, .tick 1250, .fire 1 1]
    (fun s => s.driver.log = [ascii "billy"]) (by decide)
  exact ⟨_, s, hmade, hs, of_decide_eq_true hp,
    table_refines_bounded_map sampleConfig 2 (by decide) _ s hmade hs⟩

end DevKota.Lab2
