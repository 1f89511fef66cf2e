import DevKota.Lab2Lost
import DevKota.Lifecycle

/-! Loads and unloads of the lab2 driver, and what the kernel has lost when it is out. -/
namespace DevKota.Lab2
open CString Kernel Runs Ledgers Lifecycle

/-- What the kernel keeps for the module: its device number, its character device, the blocks of
former loads that nobody freed, and the timers that were armed when their memory went away. -/
structure Host where
  now : ℕ
  region : Bool
  myCdev : Bool
  lost : ℕ
  armed : List (TimerList Callback)

/-- The kernel's answers to one load: the table of `create_timers(1)`, the device number, as far
as it is free, and the device. -/
structure Grants where
  table : Bool
  region : Bool
  cdev : Bool

namespace Driver

/-- The blocks that were not freed. -/
def unfreed (d : Driver) : List ℕ := (List.range d.nextBlock).filter (· ∉ d.freed)

/-- The timers that are armed, in every table that was ever made. -/
def armedTimers (d : Driver) : List (TimerList Callback) :=
  (d.tables.flatMap fun tb => tb.slots.map (·.timer)).filter (·.pending)

end Driver

namespace Host

/-- The module's data goes away. -/
def freeModule (h : Host) (d : Driver) : Host :=
  { h with lost := h.lost + d.unfreed.length, armed := d.armedTimers ++ h.armed }

/-- `my_module_init`: what the module took and its data, and the return value. -/
def myModuleInit (h : Host) (g : Grants) : Host × Driver × ℤ :=
  -- the result of `create_timers` is not looked at, and no way out frees the table
  let d := Driver.myModuleInit g.table
  if ¬ (h.region = false ∧ g.region) then (h, d, -EBUSY)
  else
    let h := { h with region := true }
    if ¬ g.cdev then ({ h with region := false }, d, -ENOMEM)
    else ({ h with myCdev := true }, d, 0)

/-- `my_module_exit`. -/
def myModuleExit (h : Host) (d : Driver) : Option (Host × Driver) :=
  d.timersDestroy.map fun d => ({ h with region := false, myCdev := false }, d)

end Host

/-- The module in the kernel. Without it only time goes on. -/
def component (cfg : Config) : Component Host Driver Grants Event where
  load h g :=
    let r := h.myModuleInit g
    if r.2.2 = 0 then (r.1, some r.2.1) else (r.1.freeModule r.2.1, none)
  unload h d := (h.myModuleExit d).map fun r => r.1.freeModule r.2
  inside h d e := (step cfg ⟨h.now, d⟩ e).map fun s => ({ h with now := s.now }, s.driver)
  outside h e :=
    match e with
    | .tick ticks => some { h with now := h.now + ticks }
    | _ => none

/-- Nothing is held, nothing lost. -/
structure Clean (h : Host) : Prop where
  region : h.region = false
  myCdev : h.myCdev = false
  lost : h.lost = 0
  armed : h.armed = []

/-- The number and the device are held, and no block is lost. -/
structure Held (h : Host) (d : Driver) : Prop where
  region : h.region = true
  myCdev : h.myCdev = true
  lost : h.lost = 0 ∧ d.lost = ∅
  armed : h.armed = []

/-- A load that gets a table gets the rest, and no event drops a block. -/
def duty : Duty Host Driver Grants Event where
  load _ g := g.table = true → g.region = true ∧ g.cdev = true
  unload _ _ := True
  inner h d e := dropped ⟨h.now, d⟩ e = none

section Modules
variable (cfg : Config) (h : Host) (d d' : Driver)

theorem unfreed_nil_iff : d.unfreed = [] ↔ ∀ id < d.nextBlock, id ∈ d.freed := by
  rw [Driver.unfreed, List.filter_eq_nil_iff]
  simp

theorem armedTimers_nil_iff :
    d.armedTimers = [] ↔ ∀ t i s, d.slot t i = some s → s.timer.pending = false := by
  rw [Driver.armedTimers, List.filter_eq_nil_iff]
  constructor
  · intro hall t i s hs
    obtain ⟨tb, htb, hslot⟩ := Option.bind_eq_some_iff.mp hs
    have hmem : s.timer ∈ d.tables.flatMap fun tb => tb.slots.map (·.timer) :=
      List.mem_flatMap.mpr ⟨tb, List.mem_of_getElem? htb,
        List.mem_map_of_mem (List.mem_of_getElem? hslot)⟩
    simpa using hall s.timer hmem
  · intro hall timer hmem
    obtain ⟨tb, htb, hmem⟩ := List.mem_flatMap.mp hmem
    obtain ⟨s, hs, rfl⟩ := List.mem_map.mp hmem
    obtain ⟨t, ht⟩ := List.getElem?_of_mem htb
    obtain ⟨i, hi⟩ := List.getElem?_of_mem hs
    have hslot : d.slot t i = some s := by
      rw [Driver.slot, ht]
      exact hi
    simp [hall t i s hslot]

/-- The loop of `timers_destroy` arms nothing. -/
theorem destroy_loop_unarmed (is : List ℕ)
    (hnone : ∀ t i s, d.slot t i = some s → s.timer.pending = false)
    (hloop : is.foldlM Driver.destroyTimer d = some d') (t i : ℕ) (s : MsgTimer)
    (hs : d'.slot t i = some s) : s.timer.pending = false := by
  induction is generalizing d with
  | nil =>
    obtain rfl := Option.some.inj hloop
    exact hnone t i s hs
  | cons j is ih =>
    rw [List.foldlM_cons] at hloop
    obtain ⟨d1, hd1, hrest⟩ := Option.bind_eq_some_iff.mp hloop
    refine ih d1 (fun t' i' s' hs' => ?_) hrest
    obtain ⟨t0, ht0, hd1⟩ := Option.bind_eq_some_iff.mp hd1
    obtain ⟨x, hx, hd1⟩ := Option.bind_eq_some_iff.mp hd1
    obtain ⟨d2, hd2, rfl⟩ := Option.map_eq_some_iff.mp hd1
    -- only the slot that was just detached is stored
    have hslots : d2.slot t' i' = d.slot t' i' := by
      rw [Driver.slot, (kfree_cases d d2 _ hd2).1]
      rfl
    rw [slot_setSlot] at hs'
    split_ifs at hs' with hti
    · obtain ⟨y, -, rfl⟩ := Option.map_eq_some_iff.mp hs'
      rfl
    · rw [hslots] at hs'
      exact hnone t' i' s' hs'

/-- Where nothing was lost, an unload that gets to its end frees and stops everything. -/
theorem timersDestroy_clean (hacc : Accounted d) (hlost : d.lost = ∅)
    (hd : d.timersDestroy = some d') : d'.unfreed = [] ∧ d'.armedTimers = [] := by
  obtain ⟨d1, hloop, hfree⟩ := Option.bind_eq_some_iff.mp hd
  obtain ⟨hcurrent, htable⟩ := (timersDestroy_loop_iff d hacc).mp ⟨d1, hloop⟩
  have hidle := idle_of_kept d hacc hlost hcurrent
  constructor
  · obtain ⟨u, hu, hall⟩ := (unload_clean_iff_kept d hacc).mpr ⟨hlost, hidle, htable⟩
    rw [hd] at hu
    obtain rfl := Option.some.inj hu
    apply (unfreed_nil_iff d').mpr
    intro id hid
    apply List.count_pos_iff.mp
    rw [hall id hid]
    exact Nat.one_pos
  · apply (armedTimers_nil_iff d').mpr
    intro t i s hs
    have hslot : d1.slot t i = some s := by
      rw [← hs, Driver.slot, Driver.slot, (kfree_cases d1 d' _ hfree).1]
    refine destroy_loop_unarmed d d1 _ (fun t' i' s' hs' => ?_) hloop t i s hslot
    rw [← Bool.not_eq_true]
    exact fun hp => hidle t' i' s' hs' (hacc.inv.armed t' i' s' hs' hp)

/-- The data of a load that failed holds at most its table. -/
theorem init_unfreed (table : Bool) :
    (Driver.myModuleInit table).unfreed.length = (if table then 1 else 0) ∧
      (Driver.myModuleInit table).armedTimers = [] := by
  cases table with
  | true => decide
  | false => decide

theorem init_accounted (table : Bool) :
    Accounted (Driver.myModuleInit table) ∧ (Driver.myModuleInit table).lost = ∅ :=
  fresh_accounted _ (fresh_loaded 0 table)

theorem myModuleInit_taken (g : Grants) (hr : h.region = false)
    (hg : g.region = true ∧ g.cdev = true) :
    h.myModuleInit g =
      ({ h with region := true, myCdev := true }, Driver.myModuleInit g.table, 0) := by
  simp [Host.myModuleInit, hr, hg]

/-- A load that fails holds nothing in the end. -/
theorem myModuleInit_failed (g : Grants) (hr : h.region = false)
    (hg : ¬ (g.region = true ∧ g.cdev = true)) :
    ∃ e, e ≠ 0 ∧ h.myModuleInit g = (h, Driver.myModuleInit g.table, e) := by
  have hsame : ({ h with region := false } : Host) = h := by
    rw [← hr]
  by_cases hregion : g.region = true
  · have hcdev : ¬ g.cdev = true := fun hc => hg ⟨hregion, hc⟩
    refine ⟨-ENOMEM, by decide, ?_⟩
    simp [Host.myModuleInit, hr, hregion, hcdev, hsame]
  · refine ⟨-EBUSY, by decide, ?_⟩
    simp [Host.myModuleInit, hregion]

theorem load_kept_iff (g : Grants) (hclean : Clean h) :
    Kept Clean Held ⟨((component cfg).load h g).1, ((component cfg).load h g).2⟩ ↔
      (g.table = true → g.region = true ∧ g.cdev = true) := by
  obtain ⟨hunfreed, harmed⟩ := init_unfreed g.table
  by_cases hg : g.region = true ∧ g.cdev = true
  · simp only [Kept, component, myModuleInit_taken h g hclean.region hg, if_true]
    refine ⟨fun _ _ => hg, fun _ => ⟨rfl, rfl, ⟨hclean.lost, ?_⟩, hclean.armed⟩⟩
    exact (init_accounted g.table).2
  · obtain ⟨e, he, hinit⟩ := myModuleInit_failed h g hclean.region hg
    simp only [Kept, component, hinit, if_neg he]
    constructor
    · intro hc ht
      -- the table of the failed load is lost
      have hzero := hc.lost
      change h.lost + (Driver.myModuleInit g.table).unfreed.length = 0 at hzero
      rw [hunfreed, ht] at hzero
      cases hzero
    · intro hduty
      have ht : ¬ g.table = true := fun ht => hg (hduty ht)
      refine ⟨hclean.region, hclean.myCdev, ?_, ?_⟩
      · change h.lost + (Driver.myModuleInit g.table).unfreed.length = 0
        rw [hunfreed, hclean.lost, if_neg ht]
      · change (Driver.myModuleInit g.table).armedTimers ++ h.armed = []
        rw [harmed, hclean.armed]
        rfl

theorem honours : (component cfg).Honours Accounted Clean Held duty where
  load h g hclean := load_kept_iff cfg h g hclean
  unload h h' d hacc hheld hu := by
    obtain ⟨r, hr, rfl⟩ := Option.map_eq_some_iff.mp hu
    obtain ⟨d', hd', rfl⟩ := Option.map_eq_some_iff.mp hr
    obtain ⟨hunfreed, harmed⟩ := timersDestroy_clean d d' hacc hheld.lost.2 hd'
    refine ⟨fun _ => trivial, fun _ => ⟨rfl, rfl, ?_, ?_⟩⟩
    · change h.lost + d'.unfreed.length = 0
      rw [hunfreed, hheld.lost.1]
      rfl
    · change d'.armedTimers ++ h.armed = []
      rw [harmed, hheld.armed]
      rfl
  inside h h' d d' e hacc hheld hin := by
    obtain ⟨s, hs, heq⟩ := Option.map_eq_some_iff.mp hin
    obtain ⟨rfl, rfl⟩ := Prod.mk.inj heq
    have hlost := (step_lost cfg ⟨h.now, d⟩ s e hacc hs).2
    rw [hheld.lost.2, Set.empty_union] at hlost
    -- what a step loses is what it drops
    change Held _ s.driver ↔ dropped ⟨h.now, d⟩ e = none
    constructor
    · intro hnext
      rw [hnext.lost.2] at hlost
      by_contra hdrop
      obtain ⟨id, hid⟩ := Option.ne_none_iff_exists'.mp hdrop
      have hmem : id ∈ (∅ : Set ℕ) := hlost ▸ hid
      exact hmem
    · intro hnone
      refine ⟨hheld.region, hheld.myCdev, ⟨hheld.lost.1, ?_⟩, hheld.armed⟩
      rw [hlost, hnone]
      simp
  outside h h' e hclean hout := by
    cases e with
    | tick ticks =>
      obtain rfl := Option.some.inj hout
      exact ⟨hclean.region, hclean.myCdev, hclean.lost, hclean.armed⟩
    | write buf alloc => cases hout
    | fire t i => cases hout
  loadInv h g d hd := by
    simp only [component] at hd
    split_ifs at hd
    obtain rfl := Option.some.inj hd
    unfold Host.myModuleInit
    split_ifs <;> exact (init_accounted g.table).1
  insideInv h h' d d' e hacc hin := by
    obtain ⟨s, hs, heq⟩ := Option.map_eq_some_iff.mp hin
    obtain ⟨-, rfl⟩ := Prod.mk.inj heq
    exact (step_lost cfg ⟨h.now, d⟩ s e hacc hs).1

end Modules

/-- While the module is out its number is free, whatever loads have failed. -/
theorem absent_free (cfg : Config) {s t : Lifecycle.State Host Driver}
    {es : List (Lifecycle.Event Grants Event)}
    (h : run (component cfg).step (fun _ _ => true) s es = some t)
    (hs : s.memory = none → s.host.region = false) : t.memory = none → t.host.region = false := by
  refine run_invariant (I := fun s : Lifecycle.State Host Driver =>
    s.memory = none → s.host.region = false) (fun u e v hu _ hv hout => ?_) h hs
  cases (component cfg).step_did u v e hv with
  | load g hm ht =>
    rw [ht] at hout ⊢
    -- a load with both grants brings the module in
    by_cases hg : g.region = true ∧ g.cdev = true
    · simp [component, myModuleInit_taken u.host g (hu hm) hg] at hout
    · obtain ⟨e, he, hinit⟩ := myModuleInit_failed u.host g (hu hm) hg
      simp only [component, hinit, if_neg he]
      exact hu hm
  | unload d hm hun ht =>
    obtain ⟨r, hr, heq⟩ := Option.map_eq_some_iff.mp hun
    obtain ⟨d', -, rfl⟩ := Option.map_eq_some_iff.mp hr
    rw [← heq]
    rfl
  | inside e d d' hm ht hin =>
    rw [ht] at hout
    cases hout
  | outside e hm ht ho =>
    cases e with
    | tick ticks =>
      rw [← Option.some.inj ho]
      exact hu hm
    | write buf alloc => cases ho
    | fire t i => cases ho

/-- Before the first load. -/
def booted (now : ℕ) : Host := ⟨now, false, false, 0, []⟩

/-- Over a run of loads, unloads that get to their end and everything the loaded driver does, the
kernel has everything back whenever the module is out, and no block is lost while it is in, exactly
when each load that got a table got the rest and no event dropped a block. In any run a load that
is granted everything succeeds when the module is out. -/
theorem loads_kept_iff (cfg : Config) (now : ℕ) (es : List (Lifecycle.Event Grants Event))
    (t : Lifecycle.State Host Driver)
    (h : run (component cfg).step (fun _ _ => true) ⟨booted now, none⟩ es = some t) :
    (Always (component cfg).step (Kept Clean Held) ⟨booted now, none⟩ es ↔
      Meets (component cfg).step duty.Met ⟨booted now, none⟩ es) ∧
    (t.memory = none → ((component cfg).load t.host ⟨true, true, true⟩).2.isSome = true) := by
  refine ⟨Component.kept_iff (honours cfg) ⟨rfl, rfl, rfl, rfl⟩ h, fun hout => ?_⟩
  have hfree := absent_free cfg h (fun _ => rfl) hout
  simp [component, myModuleInit_taken t.host ⟨true, true, true⟩ hfree ⟨rfl, rfl⟩]

/-- The duty, computed. -/
def dutyCheck (s : Lifecycle.State Host Driver) : Lifecycle.Event Grants Event → Bool
  | .load g => !g.table || (g.region && g.cdev)
  | .unload => true
  | .inner e => s.memory.all fun d => (dropped ⟨s.host.now, d⟩ e).isNone

theorem met_of_check (s : Lifecycle.State Host Driver) (e : Lifecycle.Event Grants Event)
    (h : dutyCheck s e = true) : duty.Met s e := by
  cases e with
  | load g =>
    intro hg
    simpa [dutyCheck, hg] using h
  | unload => exact fun _ _ => trivial
  | inner e =>
    intro d hd
    have hnone : (dropped ⟨s.host.now, d⟩ e).isNone = true := by simpa [dutyCheck, hd] using h
    exact Option.isNone_iff_eq_none.mp hnone

/-- A load without a table that fails, one that gets everything, a timer that fires, an unload and
another load. -/
def sampleLoads : List (Lifecycle.Event Grants Event) :=
  [.load ⟨false, true, false⟩, .load ⟨true, true, true⟩, .inner (sampleWrite "3 fig\n" true),
    .inner (.tick 750), .inner (.fire 0 0), .unload, .load ⟨true, true, true⟩]

set_option maxRecDepth 8192 in
theorem loads_kept_iff_run : ∃ t,
    run (component sampleConfig).step (fun _ _ => true) ⟨booted 0, none⟩ sampleLoads = some t ∧
      t.memory.isSome = true ∧
      Always (component sampleConfig).step (Kept Clean Held) ⟨booted 0, none⟩ sampleLoads := by
  have hrun : (run (component sampleConfig).step (fun _ _ => true) ⟨booted 0, none⟩
      sampleLoads).any (fun t => t.memory.isSome) = true := by decide
  obtain ⟨t, ht, hin⟩ := (Option.any_eq_true _ _).mp hrun
  have hmeets : (run (component sampleConfig).step dutyCheck ⟨booted 0, none⟩
      sampleLoads).isSome = true := by decide
  obtain ⟨u, hu⟩ := Option.isSome_iff_exists.mp hmeets
  exact ⟨t, ht, hin, (loads_kept_iff sampleConfig 0 sampleLoads t ht).1.mpr
    (meets_of_run met_of_check hu)⟩

end DevKota.Lab2
