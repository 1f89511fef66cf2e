import DevKota.Lab2Invariant

/-! What a failing write leaves of the lab2 driver. -/
namespace DevKota.Lab2
open CString Kernel Runs

/-- No global and no slot of any table differs. -/
structure SameState (d d' : Driver) : Prop where
  gNumTimers : d'.gNumTimers = d.gNumTimers
  gTimers : d'.gTimers = d.gTimers
  slot (t i : ℕ) : d'.slot t i = d.slot t i

/-- The operations that use the table run without touching memory they must not. -/
structure Safe (cfg : Config) (d : Driver) : Prop where
  search (message : List Byte) : d.findAvailableTimer message ≠ none
  listing (now : ℕ) (alloc : Bool) : d.getActiveTimers cfg now alloc ≠ none
  room : d.checkForRoom ≠ none

/-- There is a table if there are timers, and no active slot's message is NULL. -/
structure Intact (d : Driver) : Prop where
  table : 0 < d.gNumTimers → d.gTimers ≠ none
  message (t i : ℕ) (s : MsgTimer) : d.gTimers = some t → (i:ℤ) < d.gNumTimers →
    d.slot t i = some s → s.Active → s.message ≠ .null

section Safety
variable (cfg : Config) (now : ℕ) (d : Driver)

theorem current_defined (h : Inv d) (ht : 0 < d.gNumTimers → d.gTimers ≠ none) :
    ∃ slots, d.current = some slots := by
  unfold Driver.current
  split_ifs with hn
  · exact ⟨[], rfl⟩
  · obtain ⟨t, ht⟩ := Option.ne_none_iff_exists'.mp (ht (by omega))
    -- the last slot is there, so the table is long enough
    obtain ⟨s, hs⟩ := h.table t ht (d.gNumTimers.toNat-1) (by omega)
    obtain ⟨tb, htb, hs⟩ := Option.bind_eq_some_iff.mp hs
    obtain ⟨hl, -⟩ := List.getElem?_eq_some_iff.mp hs
    rw [ht, Option.bind_some, htb, Option.bind_some, if_pos (by omega)]
    exact ⟨_, rfl⟩

theorem findMessage_defined (m : List Byte) (slots : List MsgTimer) (i : ℕ)
    (h : ∀ s ∈ slots, s.Active → d.deref s.message ≠ none) : d.findMessage m i slots ≠ none := by
  induction slots generalizing i with
  | nil => simp [Driver.findMessage]
  | cons s slots ih =>
    have hrest := ih (i+1) fun u hu => h u (List.mem_cons_of_mem _ hu)
    rw [Driver.findMessage]
    split_ifs with ha
    · obtain ⟨text, htext⟩ := Option.ne_none_iff_exists'.mp
        (h s (by simp) ((isSome_function s).mp ha))
      rw [htext, Option.bind_some]
      split_ifs
      · simp
      · exact hrest
    · exact hrest

theorem activeLines_defined_iff (slots : List MsgTimer) :
    d.activeLines cfg now slots ≠ none ↔ ∀ s ∈ slots, s.Active → d.deref s.message ≠ none := by
  induction slots with
  | nil => simp [Driver.activeLines]
  | cons s slots ih =>
    rw [Driver.activeLines]
    simp only [List.mem_cons, forall_eq_or_imp]
    rw [← ih, ← isSome_function s]
    split_ifs with ha
    · cases d.deref s.message with
      | none => simp [ha]
      | some text => simp [ha]
    · simp [ha]

/-- In a reachable state only a missing table and a NULL message are in the way. -/
theorem safe_iff_intact (h : Inv d) : Safe cfg d ↔ Intact d := by
  constructor
  · intro hs
    -- `check_for_room` needs the table, the listing reads every active message
    have hcur : ∃ slots, d.current = some slots := by
      apply Option.ne_none_iff_exists'.mp
      intro hnone
      exact hs.room (by rw [Driver.checkForRoom, hnone]; rfl)
    obtain ⟨slots, hcur⟩ := hcur
    have hlines : d.activeLines cfg 0 slots ≠ none := by
      intro hnone
      exact hs.listing 0 true (by rw [Driver.getActiveTimers, hcur, Option.bind_some, hnone]; rfl)
    constructor
    · intro hpos
      rcases current_some d slots hcur with ⟨hn, -⟩ | ⟨-, t, ht, -, -⟩
      · omega
      · rw [ht]
        simp
    · intro t i s ht hi hslot ha hm
      have hmem := slot_mem_current d slots hcur t i s ht hi hslot
      apply (activeLines_defined_iff cfg 0 d slots).mp hlines s hmem ha
      rw [hm]
      rfl
  · intro hi
    obtain ⟨slots, hcur⟩ := current_defined d h hi.table
    have hderef (s : MsgTimer) (hs : s ∈ slots) (ha : s.Active) : d.deref s.message ≠ none := by
      obtain ⟨t, i, ht, hin, hslot⟩ := current_slot d slots hcur s hs
      -- by the invariant an active message is NULL or a live block
      rcases h.message t i s hslot ha with hnull | ⟨id, text, hb, hlive, -⟩
      · exact absurd hnull (hi.message t i s ht hin hslot ha)
      · rw [hb, Driver.deref, if_neg hlive]
        simp
    constructor
    · intro m
      rw [Driver.findAvailableTimer, hcur, Option.bind_some]
      simpa using findMessage_defined d m slots 0 hderef
    · intro now alloc
      rw [Driver.getActiveTimers, hcur, Option.bind_some]
      simpa using (activeLines_defined_iff cfg now d slots).mpr hderef
    · rw [Driver.checkForRoom, hcur]
      simp

end Safety

/-- A write that fails leaves the driver as it was, and usable. -/
def FailureAtomic (cfg : Config) (now : ℕ) (d : Driver) (buf : UserBuf) (alloc : Bool) : Prop :=
  ∀ d' r, d.timerWrite cfg now buf alloc = some (d', r) → r < 0 → SameState d d' ∧ Safe cfg d'

/-- When it does: a command that is turned down meets an intact driver; a resize gets its block
or asks for no bytes, or there was no table and none is asked for; a set command gets its block,
or finds no slot. -/
def AtomicWhen (d : Driver) (alloc : Bool) : Request → Prop
  | .malformed _ => Intact d
  | .nullNumber => True
  | .resize n =>
    alloc = true ∨ kmallocSize n = 0 ∨ (d.gTimers = none ∧ d.gNumTimers = n ∧ n ≤ 0)
  | .set _ m => alloc = true ∨ ∀ i : ℕ, d.findAvailableTimer m ≠ some (i:ℤ)

section Atomic
variable (cfg : Config) (now : ℕ) (d : Driver) (buf : UserBuf) (alloc : Bool)

theorem atomic_of_condition (h : Inv d) (hw : AtomicWhen d alloc (requestOf buf)) :
    FailureAtomic cfg now d buf alloc := by
  intro d' r hd hr
  rw [timerWrite_eq] at hd
  obtain ⟨⟨d'', r'⟩, hq, hret⟩ := Option.map_eq_some_iff.mp hd
  obtain ⟨rfl, hr'⟩ := Prod.mk.inj hret
  -- only a negative result of the parser is returned as one
  have hneg : r' < 0 := by
    by_contra hpos
    simp only [hpos, if_false] at hr'
    omega
  have he := perform_effect cfg now d d'' alloc _ r' hq
  have hinv := effect_inv cfg now d d'' alloc _ r' h he
  generalize requestOf buf = req at hw he
  -- of the effects with a negative result, the condition leaves those that change nothing
  cases he with
  | malformed e => exact ⟨⟨rfl, rfl, fun _ _ => rfl⟩, (safe_iff_intact cfg d h).mpr hw⟩
  | noTable n ha hsize =>
    rcases hw with hw | hw | ⟨htable, hnum, hn⟩
    · rw [ha] at hw
      cases hw
    · exact absurd hw hsize
    · refine ⟨⟨hnum.symm, htable.symm, fun _ _ => rfl⟩, (safe_iff_intact cfg _ hinv).mpr ⟨?_, ?_⟩⟩
      · intro hpos
        have hpos' : 0 < n := hpos
        omega
      · intro t i s ht
        cases ht
  | newTable n k ha hk hsize => exact absurd hneg (by decide)
  | full seconds m hf => exact absurd hneg (by decide)
  | unfilled seconds m t i s ha hf hc =>
    rcases hw with hw | hw
    · rw [ha] at hw
      cases hw
    · exact absurd hf (hw i)
  | filled seconds m t i s r ha hf hc hr0 => omega

theorem condition_of_atomic (h : Inv d) (hatomic : FailureAtomic cfg now d buf alloc) :
    AtomicWhen d alloc (requestOf buf) := by
  have hrun (d' : Driver) (r : ℤ) (hq : d.perform cfg now alloc (requestOf buf) = some (d', r))
      (hr : r < 0) : SameState d d' ∧ Safe cfg d' := by
    refine hatomic d' r ?_ hr
    rw [timerWrite_eq, hq, Option.map_some, returned, if_pos hr]
  have hmalformed := requestOf_malformed buf
  generalize requestOf buf = req at hrun hmalformed ⊢
  cases req with
  | malformed e =>
    exact (safe_iff_intact cfg d h).mp (hrun d e rfl (hmalformed e rfl)).2
  | nullNumber => trivial
  | resize n =>
    by_cases hgot : alloc = true ∨ kmallocSize n = 0
    · exact hgot.imp_right Or.inl
    · rw [not_or, Bool.not_eq_true] at hgot
      obtain ⟨hsame, hsafe⟩ := hrun { d with gNumTimers := n, gTimers := none } (-1)
        (createTimers_refused d n alloc hgot) (by decide)
      refine Or.inr (Or.inr ⟨hsame.gTimers.symm, hsame.gNumTimers.symm, ?_⟩)
      -- with `n` timers asked for, `check_for_room` would go through NULL
      by_contra hn
      apply hsafe.room
      rw [Driver.checkForRoom, Driver.current, if_neg (show ¬ n ≤ 0 from hn)]
      rfl
  | set seconds m =>
    cases alloc with
    | true => exact Or.inl rfl
    | false =>
      right
      intro i hf
      rcases findAvailableTimer_cases d m i hf with ⟨t, j, s, hij, hc⟩ | ⟨hfull, -⟩
      · obtain ⟨hsame, -⟩ := hrun (d.setSlot t j s.unfilled) (-ENOMEM) (by
          rw [Driver.perform, hf, Option.bind_some, if_pos (by omega), hij,
            setTimer_chosen cfg now d false t j s m m seconds hc]
          rfl) (by decide)
        -- the slot of the failed message would have to be as it is now
        have hslot := hsame.slot t j
        rw [slot_setSlot, if_pos ⟨rfl, rfl⟩, hc.slot] at hslot
        have hs : s.unfilled = s := Option.some.inj hslot
        rcases hc.choice with ⟨-, hm⟩ | ⟨hidle, -⟩
        · rw [← hs] at hm
          cases hm
        · apply hidle
          rw [← hs]
          rfl
      · rw [ENOMEM] at hfull
        omega

end Atomic

/-- Failed writes are atomic in exactly these cases, in every reachable state, for every input
and either outcome of the allocation. -/
theorem failed_write_atomic_iff (cfg : Config) (load : ℕ) (loadAlloc : Bool) (s : State)
    (h : Reach (step cfg) (fun _ _ => True) (loaded load loadAlloc) s) (buf : UserBuf)
    (alloc : Bool) :
    FailureAtomic cfg s.now s.driver buf alloc ↔ AtomicWhen s.driver alloc (requestOf buf) := by
  have hinv := inv_reach cfg load loadAlloc s h
  constructor
  · intro hatomic
    exact condition_of_atomic cfg s.now s.driver buf alloc hinv hatomic
  · intro hw
    exact atomic_of_condition cfg s.now s.driver buf alloc hinv hw

def sampleConfig : Config := ⟨250, by decide, by decide⟩

def sampleWrite (text : String) (alloc : Bool) : Event := .write ⟨ascii text, true⟩ alloc

theorem requestOf_sample : requestOf ⟨ascii "5 x", true⟩ = .set 5 (ascii "x") := by
  rfl

theorem requestOf_sample_malformed : requestOf ⟨ascii "x bob", true⟩ = .malformed (-EINVAL) := by
  rfl

set_option maxRecDepth 8192 in
/-- A command without seconds is turned down while a timer runs. -/
theorem failed_write_atomic_iff_run : ∃ s d',
    Reach (step sampleConfig) (fun _ _ => True) (loaded 0 true) s ∧
      (s.driver.slot 0 0).any (fun x => x.timer.pending) = true ∧
      s.driver.timerWrite sampleConfig s.now ⟨ascii "x bob", true⟩ true = some (d', -EINVAL) ∧
      FailureAtomic sampleConfig s.now s.driver ⟨ascii "x bob", true⟩ true := by
  obtain ⟨s, hs, hp⟩ := exists_reach_of_free_run (step sampleConfig) (loaded 0 true)
    [sampleWrite "300 dakota\n" true]
    (fun s => s.driver.gTimers = some 0 ∧ s.driver.gNumTimers = 1 ∧
      (s.driver.slot 0 0).any (fun x => x.timer.pending) = true ∧
      ((s.driver.slot 0 0).all fun x => x.message ≠ .null) = true) (by decide)
  obtain ⟨htable, hnum, hpending, hmessage⟩ := of_decide_eq_true hp
  refine ⟨s, s.driver, hs, hpending, ?_,
    (failed_write_atomic_iff sampleConfig 0 true s hs _ _).mpr ?_⟩
  · rw [timerWrite_eq, requestOf_sample_malformed]
    rfl
  · rw [requestOf_sample_malformed]
    refine ⟨fun _ => by simp [htable], ?_⟩
    intro t i x ht hi hx _
    rw [htable] at ht
    obtain rfl := Option.some.inj ht
    -- the only slot is the one the message went to
    obtain rfl : i = 0 := by omega
    rw [hx] at hmessage
    simpa using hmessage

/-- The message of a new timer cannot be allocated: the slot is marked in use all the same. -/
theorem failed_write_not_atomic : ¬ ∀ (cfg : Config) (load : ℕ) (loadAlloc : Bool) (s : State),
    Reach (step cfg) (fun _ _ => True) (loaded load loadAlloc) s → ∀ (buf : UserBuf)
      (alloc : Bool), FailureAtomic cfg s.now s.driver buf alloc := by
  intro hall
  have hreach : Reach (step sampleConfig) (fun _ _ => True) (loaded 0 true) (loaded 0 true) :=
    reach_refl _
  have h := (failed_write_atomic_iff sampleConfig 0 true _ hreach ⟨ascii "5 x", true⟩ false).mp
    (hall sampleConfig 0 true _ hreach _ _)
  rw [requestOf_sample] at h
  rcases h with h | h
  · cases h
  · exact h 0 (by decide)

end DevKota.Lab2
