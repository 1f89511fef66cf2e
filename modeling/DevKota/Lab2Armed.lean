import DevKota.Lab2Failure

/-! When the lab2 driver keeps track of its armed timers. -/
namespace DevKota.Lab2
open CString Kernel Runs

def Armed (d : Driver) (a : ℕ × ℕ) : Prop :=
  ∃ s, d.slot a.1 a.2 = some s ∧ s.timer.pending = true

/-- Every armed timer lies in the current table, is listed, is found through its message, and
there are no more of them than `g_num_timers`. -/
structure KeepsArmed (cfg : Config) (now : ℕ) (d : Driver) : Prop where
  current (t i : ℕ) : Armed d (t,i) → d.gTimers = some t ∧ (i:ℤ) < d.gNumTimers
  listed (t i : ℕ) (s : MsgTimer) : d.slot t i = some s → s.timer.pending = true →
    ∃ text listing, d.deref s.message = some text ∧
      d.getActiveTimers cfg now true = some (some listing) ∧
        Driver.activeLine cfg now s text <:+: listing
  found (t i : ℕ) (s : MsgTimer) : d.slot t i = some s → s.timer.pending = true →
    ∃ text, d.deref s.message = some text ∧ d.findAvailableTimer text = some (i:ℤ)
  count : ({a | Armed d a}.ncard : ℤ) ≤ d.gNumTimers

/-- Requests after which it stays so: a resize, of a size that does not wrap, gets its block or
needs none, while nothing is armed; a set command gets the block for its message. -/
def OrderlyRequest (d : Driver) (alloc : Bool) : Request → Prop
  | .resize n =>
    (alloc = true ∨ kmallocSize n = 0) ∧ 0 ≤ n ∧ n*sizeofMsgTimer < 2^32 ∧ ∀ a, ¬ Armed d a
  | .set _ _ => alloc = true
  | _ => True

def Orderly (s : State) : Event → Prop
  | .write buf alloc => OrderlyRequest s.driver alloc (requestOf buf)
  | _ => True

/-- What orderly runs preserve besides `Inv`. -/
structure Tidy (d : Driver) : Prop where
  armed (t i : ℕ) (s : MsgTimer) : d.slot t i = some s → s.Active → s.timer.pending = true
  current (t i : ℕ) (s : MsgTimer) : d.slot t i = some s → s.Active →
    d.gTimers = some t ∧ (i:ℤ) < d.gNumTimers
  message (t i : ℕ) (s : MsgTimer) : d.slot t i = some s → s.Active → s.message ≠ .null
  keyed (t i : ℕ) (s : MsgTimer) (t' i' : ℕ) (s' : MsgTimer) (text : List Byte) :
    d.slot t i = some s → s.Active → d.deref s.message = some text →
      d.slot t' i' = some s' → s'.Active → d.deref s'.message = some text → t' = t ∧ i' = i
  size : 0 ≤ d.gNumTimers

section Preserve
variable (cfg : Config) (now : ℕ) (d d' : Driver)

/-- An active slot's message can be read. -/
theorem deref_active (h : Inv d) (ht : Tidy d) (t i : ℕ) (s : MsgTimer)
    (hs : d.slot t i = some s) (ha : s.Active) :
    ∃ id text, s.message = .block id text ∧ d.deref s.message = some text := by
  rcases h.message t i s hs ha with hnull | ⟨id, text, hb, hlive, -⟩
  · exact absurd hnull (ht.message t i s hs ha)
  · exact ⟨id, text, hb, by rw [hb, Driver.deref, if_neg hlive]⟩

theorem intact_of_tidy (ht : Tidy d) (htable : 0 < d.gNumTimers → d.gTimers ≠ none) : Intact d :=
  ⟨htable, fun t i s _ _ hs ha => ht.message t i s hs ha⟩

theorem filled_tidy (h : Inv d) (ht : Tidy d) (t i : ℕ) (s : MsgTimer) (seconds : ℤ)
    (m : List Byte) (hc : Chosen d t i s m)
    (hd : d' = { d.setSlot t i (s.filled cfg now d.nextBlock seconds m) with
      nextBlock := d.nextBlock + 1 }) : Tidy d' := by
  have hslot (t' i' : ℕ) : d'.slot t' i' =
      if t' = t ∧ i' = i then some (s.filled cfg now d.nextBlock seconds m) else d.slot t' i' :=
    inv_setSlot_slot d d' t i s _ hc.slot (by rw [hd]) t' i'
  have hnum : d'.gNumTimers = d.gNumTimers := by rw [hd]; rfl
  have hcur : d'.gTimers = d.gTimers := by rw [hd]; rfl
  have hderef (p : Pointer) : d'.deref p = d.deref p := by rw [hd]; rfl
  have hnew := deref_filled cfg now d h s seconds m
  -- no other active slot holds the message, whether the chosen one held it or was free
  have hother (t' i' : ℕ) (s' : MsgTimer) (hne : ¬ (t' = t ∧ i' = i))
      (hs' : d.slot t' i' = some s') (ha' : s'.Active) : d.deref s'.message ≠ some m := by
    intro hm'
    rcases hc.choice with ⟨ha, hm⟩ | ⟨-, hnone⟩
    · exact hne (ht.keyed t i s t' i' s' m hc.slot ha hm hs' ha' hm')
    · obtain ⟨htab, hlt⟩ := ht.current t' i' s' hs' ha'
      rw [hc.table] at htab
      obtain rfl := Option.some.inj htab
      exact hnone i' s' hlt hs' ha' hm'
  have hcase := stored_cases d d' t i _ hslot
  constructor
  · intro t' i' s' hs' ha
    rcases hcase t' i' s' hs' with ⟨-, rfl⟩ | ⟨-, hold⟩
    · rfl
    · exact ht.armed t' i' s' hold ha
  · intro t' i' s' hs' ha
    rw [hcur, hnum]
    rcases hcase t' i' s' hs' with ⟨⟨rfl, rfl⟩, -⟩ | ⟨-, hold⟩
    · exact ⟨hc.table, hc.index⟩
    · exact ht.current t' i' s' hold ha
  · intro t' i' s' hs' ha
    rcases hcase t' i' s' hs' with ⟨-, rfl⟩ | ⟨-, hold⟩
    · exact fun hnull => by cases hnull
    · exact ht.message t' i' s' hold ha
  · intro t1 i1 s1 t2 i2 s2 text hs1 ha1 hm1 hs2 ha2 hm2
    rw [hderef] at hm1 hm2
    rcases hcase t1 i1 s1 hs1 with ⟨hti1, rfl⟩ | ⟨hti1, hold1⟩
    · rcases hcase t2 i2 s2 hs2 with ⟨hti2, -⟩ | ⟨hti2, hold2⟩
      · exact ⟨hti2.1.trans hti1.1.symm, hti2.2.trans hti1.2.symm⟩
      · rw [hnew] at hm1
        exact absurd (hm2.trans hm1.symm) (hother t2 i2 s2 hti2 hold2 ha2)
    · rcases hcase t2 i2 s2 hs2 with ⟨-, rfl⟩ | ⟨-, hold2⟩
      · rw [hnew] at hm2
        exact absurd (hm1.trans hm2.symm) (hother t1 i1 s1 hti1 hold1 ha1)
      · exact ht.keyed t1 i1 s1 t2 i2 s2 text hold1 ha1 hm1 hold2 ha2 hm2
  · rw [hnum]
    exact ht.size

theorem effect_tidy (alloc : Bool) (req : Request) (r : ℤ) (h : Inv d) (ht : Tidy d)
    (ho : OrderlyRequest d alloc req) (he : Effect cfg now d alloc req d' r) : Tidy d' := by
  cases he with
  | malformed e => exact ht
  | noTable n ha hsize =>
    rcases ho.1 with hgot | hzero
    · rw [hgot] at ha
      cases ha
    · exact absurd hzero hsize
  | newTable n k ha hk hsize =>
    -- nothing was armed, so nothing is active, and the new slots are fresh
    have hidle (t i : ℕ) (s : MsgTimer) (hs : (d.withTable n k).slot t i = some s) :
        ¬ s.Active := by
      rcases withTable_slot d n k t i s hs with ⟨-, -, rfl⟩ | ⟨-, hold⟩
      · exact freshSlot_idle.1
      · intro hact
        exact ho.2.2.2 (t,i) ⟨s, hold, ht.armed t i s hold hact⟩
    exact ⟨fun t i s hs hact => absurd hact (hidle t i s hs),
      fun t i s hs hact => absurd hact (hidle t i s hs),
      fun t i s hs hact => absurd hact (hidle t i s hs),
      fun t i s _ _ _ _ hs hact => absurd hact (hidle t i s hs), ho.2.1⟩
  | full seconds m hf => exact ht
  | unfilled seconds m t i s ha hf hc =>
    have ho' : alloc = true := ho
    rw [ho'] at ha
    cases ha
  | filled seconds m t i s r ha hf hc hr =>
    exact filled_tidy cfg now d _ h ht t i s seconds m hc rfl

theorem expire_tidy (t i : ℕ) (ht : Tidy d) (he : d.expire t i = some d') :
    Tidy d' := by
  obtain ⟨s, hs, ha, hslots, hnum, hcur, -, hfreed⟩ := expire_cases d d' t i he
  have hold (t' i' : ℕ) (s' : MsgTimer) (hs' : d'.slot t' i' = some s') (ha' : s'.Active) :
      d.slot t' i' = some s' := by
    rcases stored_cases d d' t i _ hslots t' i' s' hs' with ⟨-, rfl⟩ | ⟨-, hold⟩
    · cases ha'
    · exact hold
  -- blocks are only ever freed, so what can be read now could be read before
  have hderef (p : Pointer) (text : List Byte) (hp : d'.deref p = some text) :
      d.deref p = some text := by
    cases p with
    | junk => cases hp
    | null => cases hp
    | block id x =>
      simp only [Driver.deref] at hp ⊢
      split_ifs at hp with hid
      rw [if_neg, hp]
      intro hid'
      apply hid
      rcases hfreed with ⟨-, heq⟩ | ⟨id', text', -, -, heq⟩
      · rw [heq]
        exact hid'
      · rw [heq]
        exact List.mem_cons_of_mem _ hid'
  constructor
  · intro t' i' s' hs' ha'
    exact ht.armed t' i' s' (hold t' i' s' hs' ha') ha'
  · intro t' i' s' hs' ha'
    rw [hcur, hnum]
    exact ht.current t' i' s' (hold t' i' s' hs' ha') ha'
  · intro t' i' s' hs' ha'
    exact ht.message t' i' s' (hold t' i' s' hs' ha') ha'
  · intro t1 i1 s1 t2 i2 s2 text hs1 ha1 hm1 hs2 ha2 hm2
    exact ht.keyed t1 i1 s1 t2 i2 s2 text (hold t1 i1 s1 hs1 ha1) ha1 (hderef _ _ hm1)
      (hold t2 i2 s2 hs2 ha2) ha2 (hderef _ _ hm2)
  · rw [hnum]
    exact ht.size

theorem tidy_init (alloc : Bool) : Tidy (Driver.myModuleInit alloc) := by
  have hidle := init_idle alloc
  refine ⟨fun t i s hs ha => absurd ha (hidle t i s hs), fun t i s hs ha => absurd ha (hidle t i s hs),
    fun t i s hs ha => absurd ha (hidle t i s hs),
    fun t i s _ _ _ _ hs ha => absurd ha (hidle t i s hs), ?_⟩
  cases alloc <;> decide

theorem step_tidy (s s' : State) (e : Event) (h : Inv s.driver) (ht : Tidy s.driver)
    (ho : Orderly s e) (hs : step cfg s e = some s') : Tidy s'.driver := by
  rcases step_cases cfg s s' e hs with
    ⟨ticks, -, heq⟩ | ⟨buf, alloc, r, rfl, he⟩ | ⟨t, i, x, -, -, -, he⟩
  · rw [heq]
    exact ht
  · exact effect_tidy cfg s.now _ _ alloc _ _ h ht ho he
  · exact expire_tidy _ _ t i ht he

theorem tidy_reach (load : ℕ) (alloc : Bool) (s : State)
    (h : Reach (step cfg) Orderly (loaded load alloc) s) : Inv s.driver ∧ Tidy s.driver :=
  reach_invariant (I := fun s => Inv s.driver ∧ Tidy s.driver)
    (fun s e t hi ho hs => ⟨step_inv cfg s t e hi.1 hs, step_tidy cfg s t e hi.1 hi.2 ho hs⟩) h
    ⟨inv_init alloc, tidy_init alloc⟩

end Preserve

section Kept
variable (cfg : Config) (now : ℕ) (d : Driver)

theorem activeLines_mem (slots : List MsgTimer) (lines : List (List Byte)) (s : MsgTimer)
    (text : List Byte) (h : d.activeLines cfg now slots = some lines) (hs : s ∈ slots)
    (ha : s.Active) (hm : d.deref s.message = some text) :
    Driver.activeLine cfg now s text ∈ lines := by
  induction slots generalizing lines with
  | nil => cases hs
  | cons u slots ih =>
    rw [Driver.activeLines] at h
    split_ifs at h with hu
    · obtain ⟨x, hx, h⟩ := Option.bind_eq_some_iff.mp h
      obtain ⟨rest, hrest, rfl⟩ := Option.map_eq_some_iff.mp h
      rcases List.mem_cons.mp hs with rfl | hs
      · rw [hm] at hx
        obtain rfl := Option.some.inj hx
        exact List.mem_cons_self
      · exact List.mem_cons_of_mem _ (ih rest hrest hs)
    · rcases List.mem_cons.mp hs with rfl | hs
      · exact absurd ((isSome_function s).mpr ha) hu
      · exact ih lines h hs

theorem armed_current (h : Inv d) (ht : Tidy d) (t i : ℕ) (ha : Armed d (t,i)) :
    d.gTimers = some t ∧ (i:ℤ) < d.gNumTimers := by
  obtain ⟨s, hs, hp⟩ := ha
  exact ht.current t i s hs (h.armed t i s hs hp)

/-- With a timer armed there is a table to look at. -/
theorem armed_safe (h : Inv d) (ht : Tidy d) (t i : ℕ) (ha : Armed d (t,i)) : Safe cfg d := by
  apply (safe_iff_intact cfg d h).mpr
  apply intact_of_tidy d ht
  intro _
  rw [(armed_current d h ht t i ha).1]
  simp

theorem armed_listed (h : Inv d) (ht : Tidy d) (t i : ℕ) (s : MsgTimer)
    (hs : d.slot t i = some s) (hp : s.timer.pending = true) :
    ∃ text listing, d.deref s.message = some text ∧
      d.getActiveTimers cfg now true = some (some listing) ∧
        Driver.activeLine cfg now s text <:+: listing := by
  have ha := h.armed t i s hs hp
  obtain ⟨htable, hlt⟩ := armed_current d h ht t i ⟨s, hs, hp⟩
  obtain ⟨id, text, -, hm⟩ := deref_active d h ht t i s hs ha
  obtain ⟨slots, hcur⟩ := current_defined d h (fun _ => by rw [htable]; simp)
  have hmem := slot_mem_current d slots hcur t i s htable hlt hs
  have hdef := (armed_safe cfg d h ht t i ⟨s, hs, hp⟩).listing now true
  rw [Driver.getActiveTimers, hcur, Option.bind_some] at hdef ⊢
  obtain ⟨lines, hlines⟩ : ∃ lines, d.activeLines cfg now slots = some lines := by
    apply Option.ne_none_iff_exists'.mp
    intro hnone
    rw [hnone] at hdef
    exact hdef rfl
  have hline := activeLines_mem cfg now d slots lines s text hlines hmem ha hm
  refine ⟨text, lines.flatten, hm, ?_, List.infix_of_mem_flatten hline⟩
  rw [hlines, Option.map_some, if_neg]
  simp [List.ne_nil_of_mem hline]

include cfg in
theorem armed_found (h : Inv d) (ht : Tidy d) (t i : ℕ) (s : MsgTimer)
    (hs : d.slot t i = some s) (hp : s.timer.pending = true) :
    ∃ text, d.deref s.message = some text ∧ d.findAvailableTimer text = some (i:ℤ) := by
  have ha := h.armed t i s hs hp
  obtain ⟨htable, hlt⟩ := armed_current d h ht t i ⟨s, hs, hp⟩
  obtain ⟨id, text, -, hm⟩ := deref_active d h ht t i s hs ha
  refine ⟨text, hm, ?_⟩
  obtain ⟨index, hf⟩ :=
    Option.ne_none_iff_exists'.mp ((armed_safe cfg d h ht t i ⟨s, hs, hp⟩).search text)
  rw [hf]
  rcases findAvailableTimer_cases d text index hf with ⟨t', i', s', rfl, hc⟩ | ⟨-, hnone⟩
  · -- a slot that holds the message is this one, and a free one is not taken before it
    rcases hc.choice with ⟨ha', hm'⟩ | ⟨-, hnone⟩
    · obtain ⟨-, rfl⟩ := ht.keyed t i s t' i' s' text hs ha hm hc.slot ha' hm'
      rfl
    · have ht' := hc.table
      rw [htable] at ht'
      obtain rfl := Option.some.inj ht'
      exact absurd hm (hnone i s hlt hs ha)
  · exact absurd hm (hnone t i s htable hlt hs ha)

/-- All armed addresses are `(t,i)` with one `t` and an index below the count. -/
theorem armed_count (h : Inv d) (ht : Tidy d) : ({a | Armed d a}.ncard : ℤ) ≤ d.gNumTimers := by
  have hsize := ht.size
  cases htable : d.gTimers with
  | none =>
    have hempty : {a | Armed d a} = ∅ := by
      apply Set.eq_empty_of_forall_notMem
      intro a ha
      rw [(armed_current d h ht a.1 a.2 ha).1] at htable
      cases htable
    rw [hempty, Set.ncard_empty]
    exact hsize
  | some t =>
    have hsub : {a | Armed d a} ⊆
        (((Finset.range d.gNumTimers.toNat).image fun i => (t,i) : Finset (ℕ × ℕ)) :
          Set (ℕ × ℕ)) := by
      intro a ha
      obtain ⟨hta, hlt⟩ := armed_current d h ht a.1 a.2 ha
      rw [htable] at hta
      obtain hta := Option.some.inj hta
      simp only [Finset.coe_image, Set.mem_image, Finset.coe_range, Set.mem_Iio]
      exact ⟨a.2, by omega, by rw [hta]⟩
    have hcard : {a | Armed d a}.ncard ≤ d.gNumTimers.toNat := by
      calc
        _ ≤ ((Finset.range d.gNumTimers.toNat).image fun i => (t,i)).card := by
          rw [← Set.ncard_coe_finset]
          exact Set.ncard_le_ncard hsub (Finset.finite_toSet _)
        _ ≤ (Finset.range d.gNumTimers.toNat).card := Finset.card_image_le
        _ = d.gNumTimers.toNat := Finset.card_range _
    omega

theorem keepsArmed_of_tidy (h : Inv d) (ht : Tidy d) : KeepsArmed cfg now d where
  current := armed_current d h ht
  listed := armed_listed cfg now d h ht
  found := armed_found cfg d h ht
  count := armed_count d h ht

/-- An orderly write returns, as long as a set command has a table. -/
theorem orderly_write_defined (h : Inv d) (ht : Tidy d) (buf : UserBuf) (alloc : Bool)
    (ho : OrderlyRequest d alloc (requestOf buf)) (hn : requestOf buf ≠ .nullNumber)
    (htable : d.gTimers ≠ none) : ∃ r, d.timerWrite cfg now buf alloc = some r := by
  rw [timerWrite_eq]
  generalize requestOf buf = req at ho hn
  cases req with
  | malformed e => exact ⟨_, rfl⟩
  | nullNumber => exact absurd rfl hn
  | resize n =>
    obtain ⟨hgot, h0, hsize, -⟩ := ho
    -- no wrap: the block has room for all `n` slots
    have hfits : ¬ (kmallocSize n : ℤ) < n*sizeofMsgTimer := by
      rw [kmallocSize_eq n h0 hsize]
      exact lt_irrefl _
    rw [Driver.perform, createTimers_got d n alloc hgot, if_neg hfits]
    exact ⟨_, rfl⟩
  | set seconds m =>
    have hsafe := (safe_iff_intact cfg d h).mpr (intact_of_tidy d ht fun _ => htable)
    obtain ⟨index, hf⟩ := Option.ne_none_iff_exists'.mp (hsafe.search m)
    rw [Driver.perform, hf, Option.bind_some]
    split_ifs with hpos
    · rcases findAvailableTimer_cases d m index hf with ⟨t, i, s, rfl, hc⟩ | ⟨rfl, -⟩
      · rw [setTimer_chosen cfg now d alloc t i s m m seconds hc]
        exact ⟨_, rfl⟩
      · exact absurd hpos (by decide)
    · exact ⟨_, rfl⟩

end Kept

section Check

def idleCheck (d : Driver) : Bool := d.tables.all fun tb => tb.slots.all fun s => !s.timer.pending

theorem not_armed_of_check (d : Driver) (h : idleCheck d = true) (a : ℕ × ℕ) : ¬ Armed d a := by
  intro ha
  obtain ⟨s, hs, hp⟩ := ha
  have hall := all_slots d (fun s => !s.timer.pending) h a.1 a.2 s hs
  rw [hp] at hall
  cases hall

def orderlyCheck (s : State) : Event → Bool
  | .write buf alloc =>
    match requestOf buf with
    | .resize n =>
      alloc && decide (0 ≤ n) && decide (n*sizeofMsgTimer < 2^32) && idleCheck s.driver
    | .set _ _ => alloc
    | _ => true
  | _ => true

theorem orderly_of_check (s : State) (e : Event) (h : orderlyCheck s e = true) : Orderly s e := by
  cases e with
  | write buf alloc =>
    simp only [orderlyCheck, Orderly] at h ⊢
    generalize requestOf buf = req at h ⊢
    cases req with
    | resize n =>
      simp only [Bool.and_eq_true, decide_eq_true_eq] at h
      exact ⟨Or.inl h.1.1.1, h.1.1.2, h.1.2, not_armed_of_check s.driver h.2⟩
    | set seconds m => exact h
    | _ => trivial
  | _ => trivial

end Check

/-- No armed timer is lost in orderly runs, and their writes return, although one of 128 bytes
also stores a NUL behind `kbuf`. -/
theorem armed_timers_kept (cfg : Config) (load : ℕ) (alloc : Bool) (s : State)
    (h : Reach (step cfg) Orderly (loaded load alloc) s) :
    KeepsArmed cfg s.now s.driver ∧
      ∀ buf alloc, Orderly s (.write buf alloc) → requestOf buf ≠ .nullNumber →
        s.driver.gTimers ≠ none → ∃ t, step cfg s (.write buf alloc) = some t := by
  obtain ⟨hinv, htidy⟩ := tidy_reach cfg load alloc s h
  refine ⟨keepsArmed_of_tidy cfg s.now s.driver hinv htidy, ?_⟩
  intro buf alloc ho hn htable
  obtain ⟨r, hr⟩ := orderly_write_defined cfg s.now s.driver hinv htidy buf alloc ho hn htable
  exact ⟨_, by rw [step, hr, Option.map_some]⟩

set_option maxRecDepth 8192 in
/-- The table grows while nothing runs, two timers are set and one fires. -/
theorem armed_timers_kept_run : ∃ s,
    Reach (step sampleConfig) Orderly (loaded 0 true) s ∧
      s.driver.findAvailableTimer (ascii "dakota") = some 0 ∧
      KeepsArmed sampleConfig s.now s.driver := by
  obtain ⟨s, hs, hp⟩ := exists_reach_of_run (step sampleConfig) (loaded 0 true) orderly_of_check
    [sampleWrite "^COUNT=2\n" true, sampleWrite "300 dakota\n" true,
      sampleWrite "5 billy\n" true, .tick 1250, .fire 1 1]
    (fun s => s.driver.findAvailableTimer (ascii "dakota") = some 0) (by decide)
  exact ⟨s, hs, of_decide_eq_true hp, (armed_timers_kept sampleConfig 0 true s hs).1⟩

/-- Every allocation succeeds. -/
def Allocates (_ : State) : Event → Prop
  | .write _ alloc => alloc = true
  | _ => True

def allocatesCheck (_ : State) : Event → Bool
  | .write _ alloc => alloc
  | _ => true

theorem allocates_of_check (s : State) (e : Event) (h : allocatesCheck s e = true) :
    Allocates s e := by
  cases e with
  | write buf alloc => exact h
  | _ => trivial

set_option maxRecDepth 8192 in
/-- A resize while a timer runs leaves the timer armed in a table that is no longer used. -/
theorem armed_timer_lost : ¬ ∀ (cfg : Config) (load : ℕ) (s : State),
    Reach (step cfg) Allocates (loaded load true) s → KeepsArmed cfg s.now s.driver := by
  intro hall
  obtain ⟨s, hs, hp⟩ := exists_reach_of_run (step sampleConfig) (loaded 0 true)
    allocates_of_check [sampleWrite "300 dakota\n" true, sampleWrite "^COUNT=5\n" true]
    (fun s => (s.driver.slot 0 0).any (·.timer.pending) = true ∧ s.driver.gTimers = some 1)
    (by decide)
  obtain ⟨harmed, htable⟩ := of_decide_eq_true hp
  obtain ⟨m, hm, hpending⟩ := (Option.any_eq_true _ _).mp harmed
  have hcurrent := (hall sampleConfig 0 s hs).current 0 0 ⟨m, hm, hpending⟩
  rw [htable] at hcurrent
  exact absurd hcurrent.1 (by decide)

end DevKota.Lab2
