import DevKota.DevinAlarm
import DevKota.Lab3Unload
import DevKota.Lifecycle

/-! Loads and unloads of the two `mytimer` drivers, which take and give back the same things. -/
namespace DevKota.Mytimer
open CString Kernel Runs Lifecycle

variable {D E F : Type}

/-- What the kernel keeps for the module: its major number, its `/proc` entry, the areas that it
got from `vmalloc`, and the timers that the wheel points to although their memory was freed. -/
structure Host (F : Type) where
  now : ℕ
  chrdev : Bool
  procEntry : Bool
  mytimerInfo : ℕ
  armed : List (TimerList F)

/-- The kernel's answers to one load, as far as the module does not hold the thing already. -/
structure Grants where
  chrdev : Bool
  vmalloc : Bool
  proc : Bool

def allGranted : Grants := ⟨true, true, true⟩

namespace Host

/-- `register_chrdev`. -/
def registerChrdev (h : Host F) (granted : Bool) : Host F × ℤ :=
  if h.chrdev = false ∧ granted then ({ h with chrdev := true }, 0) else (h, -EBUSY)

/-- `mytimer_init`: what it took and its return value. -/
def mytimerInit (h : Host F) (g : Grants) : Host F × ℤ :=
  let result := h.registerChrdev g.chrdev
  if result.2 < 0 then result
  else if ¬ g.vmalloc then (result.1, -ENOMEM) -- the number stays registered
  else
    let h := { result.1 with mytimerInfo := result.1.mytimerInfo + 1 }
    if h.procEntry = false ∧ g.proc then ({ h with procEntry := true }, 0)
    -- here as well; only the area is freed
    else ({ h with mytimerInfo := h.mytimerInfo - 1 }, -ENOMEM)

/-- `mytimer_exit` behind its loop, which has left these timers in the wheel. -/
def mytimerExit (h : Host F) (armed : List (TimerList F)) : Host F where
  now := h.now
  chrdev := false
  procEntry := false
  mytimerInfo := h.mytimerInfo - 1
  armed := armed ++ h.armed

end Host

/-- What the two drivers differ in: their data at load, the timers that the loop of their
`mytimer_exit` leaves in the wheel, and their events. -/
structure Module (D E F : Type) where
  data : ℕ → D
  armed : D → List (TimerList F)
  step : ℕ → D → E → Option (ℕ × D)
  ticks : E → Option ℕ

/-- Without the module only time goes on: nothing is defined to follow when the kernel calls into
its text. -/
def Module.component (m : Module D E F) : Component (Host F) D Grants E where
  load h g := ((h.mytimerInit g).1, if (h.mytimerInit g).2 = 0 then some (m.data h.now) else none)
  unload h d := some (h.mytimerExit (m.armed d))
  inside h d e := (m.step h.now d e).map fun r => ({ h with now := r.1 }, r.2)
  outside h e := (m.ticks e).map fun n => { h with now := h.now + n }

/-- Nothing is held. -/
structure Clean (h : Host F) : Prop where
  chrdev : h.chrdev = false
  procEntry : h.procEntry = false
  mytimerInfo : h.mytimerInfo = 0
  armed : h.armed = []

/-- Each thing is held once, and nothing is left of earlier loads. -/
structure Tidy (h : Host F) : Prop where
  chrdev : h.chrdev = true
  procEntry : h.procEntry = true
  mytimerInfo : h.mytimerInfo = 1
  armed : h.armed = []

/-- A load that gets the major number gets the rest, and an unload leaves nothing in the wheel. -/
def duty (Stops : D → Prop) : Duty (Host F) D Grants E where
  load _ g := g.chrdev = true → g.vmalloc = true ∧ g.proc = true
  unload _ d := Stops d
  inner _ _ _ := True

section Init
variable (h : Host F) (g : Grants)

theorem mytimerInit_busy (hc : h.chrdev = true) : h.mytimerInit g = (h, -EBUSY) := by
  have hpos : 0 < EBUSY := by decide
  simp [Host.mytimerInit, Host.registerChrdev, hc, hpos]

theorem mytimerInit_refused (hg : g.chrdev = false) : h.mytimerInit g = (h, -EBUSY) := by
  have hpos : 0 < EBUSY := by decide
  simp [Host.mytimerInit, Host.registerChrdev, hg, hpos]

theorem mytimerInit_taken (hc : h.chrdev = false) (hg : g.chrdev = true)
    (hp : h.procEntry = false) (hall : g.vmalloc = true ∧ g.proc = true) :
    h.mytimerInit g =
      ({ h with chrdev := true, procEntry := true, mytimerInfo := h.mytimerInfo + 1 }, 0) := by
  simp [Host.mytimerInit, Host.registerChrdev, hc, hg, hp, hall]

/-- A load that gets the number and not the rest keeps the number. -/
theorem mytimerInit_stranded (hc : h.chrdev = false) (hg : g.chrdev = true)
    (hmiss : ¬ (h.procEntry = false ∧ g.vmalloc = true ∧ g.proc = true)) :
    h.mytimerInit g = ({ h with chrdev := true }, -ENOMEM) := by
  have hpos : ¬ (0:ℤ) < 0 := lt_irrefl 0
  by_cases hv : g.vmalloc = true
  · have hrest : ¬ (h.procEntry = false ∧ g.proc = true) := fun hr => hmiss ⟨hr.1, hv, hr.2⟩
    simp only [Host.mytimerInit, Host.registerChrdev, hc, hg, and_self, if_true, if_neg hpos, hv,
      not_true_eq_false, if_false, if_neg hrest, Nat.add_sub_cancel]
  · simp [Host.mytimerInit, Host.registerChrdev, hc, hg, hv]

end Init

section Loads
variable (m : Module D E F) {I : D → Prop} {Stops : D → Prop}

theorem load_kept_iff (h : Host F) (g : Grants) (hclean : Clean h) :
    Kept Clean (fun h _ => Tidy h) ⟨(m.component.load h g).1, (m.component.load h g).2⟩ ↔
      (g.chrdev = true → g.vmalloc = true ∧ g.proc = true) := by
  have hbusy : ¬ -EBUSY = (0:ℤ) := by decide
  have hnomem : ¬ -ENOMEM = (0:ℤ) := by decide
  unfold Kept Module.component
  by_cases hg : g.chrdev = true
  · by_cases hall : g.vmalloc = true ∧ g.proc = true
    · simp only [mytimerInit_taken h g hclean.chrdev hg hclean.procEntry hall, if_true]
      refine ⟨fun _ _ => hall, fun _ => ⟨rfl, rfl, ?_, hclean.armed⟩⟩
      rw [hclean.mytimerInfo]
    · have hmiss : ¬ (h.procEntry = false ∧ g.vmalloc = true ∧ g.proc = true) := fun hr => hall hr.2
      simp only [mytimerInit_stranded h g hclean.chrdev hg hmiss, if_neg hnomem]
      refine ⟨fun hkept => ?_, fun hduty => absurd (hduty hg) hall⟩
      cases hkept.chrdev
  · rw [Bool.not_eq_true] at hg
    simp only [mytimerInit_refused h g hg, if_neg hbusy]
    refine ⟨fun _ hyes => ?_, fun _ => hclean⟩
    rw [hg] at hyes
    cases hyes

/-- What holds of the data is kept by the driver's own steps, and says which unloads stop all. -/
structure Stopping (I Stops : D → Prop) : Prop where
  data (now : ℕ) : I (m.data now)
  step (now now' : ℕ) (d d' : D) (e : E) : I d → m.step now d e = some (now', d') → I d'
  stops (d : D) : I d → (m.armed d = [] ↔ Stops d)

variable {m}

theorem honours (hm : Stopping m I Stops) :
    m.component.Honours I Clean (fun h _ => Tidy h) (duty Stops) where
  load h g hclean := load_kept_iff m h g hclean
  unload h h' d hi htidy hu := by
    obtain rfl := Option.some.inj hu
    change Clean (h.mytimerExit (m.armed d)) ↔ Stops d
    -- what the exit leaves in the wheel is all that can stay behind
    rw [← hm.stops d hi]
    constructor
    · intro hclean
      exact List.append_eq_nil_iff.mp hclean.armed |>.1
    · intro hnone
      refine ⟨rfl, rfl, ?_, ?_⟩
      · change h.mytimerInfo - 1 = 0
        rw [htidy.mytimerInfo]
      · change m.armed d ++ h.armed = []
        rw [hnone, htidy.armed]
        rfl
  inside h h' d d' e hi htidy hin := by
    obtain ⟨r, -, hr⟩ := Option.map_eq_some_iff.mp hin
    obtain ⟨rfl, -⟩ := Prod.mk.inj hr
    exact ⟨fun _ => trivial, fun _ => ⟨htidy.chrdev, htidy.procEntry, htidy.mytimerInfo, htidy.armed⟩⟩
  outside h h' e hclean hout := by
    obtain ⟨n, -, rfl⟩ := Option.map_eq_some_iff.mp hout
    exact ⟨hclean.chrdev, hclean.procEntry, hclean.mytimerInfo, hclean.armed⟩
  loadInv h g d hd := by
    simp only [Module.component] at hd
    split_ifs at hd
    exact Option.some.inj hd ▸ hm.data h.now
  insideInv h h' d d' e hi hin := by
    obtain ⟨r, hr, heq⟩ := Option.map_eq_some_iff.mp hin
    obtain ⟨-, rfl⟩ := Prod.mk.inj heq
    exact hm.step h.now r.1 d r.2 e hi hr

end Loads

/-- Before the first load. -/
def booted (now : ℕ) : Host F := ⟨now, false, false, 0, []⟩

theorem booted_clean (now : ℕ) : Clean (booted now : Host F) := ⟨rfl, rfl, rfl, rfl⟩

section Reload
variable (m : Module D E F)

/-- A load that is granted everything would succeed. -/
def Loadable (h : Host F) : Prop := (m.component.load h allGranted).2.isSome = true

theorem loadable_iff (h : Host F) : Loadable m h ↔ h.chrdev = false ∧ h.procEntry = false := by
  have hbusy : ¬ -EBUSY = (0:ℤ) := by decide
  have hnomem : ¬ -ENOMEM = (0:ℤ) := by decide
  unfold Loadable Module.component
  by_cases hc : h.chrdev = false
  · by_cases hp : h.procEntry = false
    · simp [mytimerInit_taken h allGranted hc rfl hp ⟨rfl, rfl⟩, hc, hp]
    · simp [mytimerInit_stranded h allGranted hc rfl (fun hr => hp hr.1), hp, hnomem]
  · rw [Bool.not_eq_false] at hc
    simp [mytimerInit_busy h allGranted hc, hc, hbusy]

/-- Of a load only the missing parts count here, of an unload nothing. -/
theorem honours_loadable :
    m.component.Honours (fun _ => True) (Loadable m) (fun _ _ => True) (duty fun _ => True) where
  load h g hl := by
    obtain ⟨hc, hp⟩ := (loadable_iff m h).mp hl
    have hbusy : ¬ -EBUSY = (0:ℤ) := by decide
    have hnomem : ¬ -ENOMEM = (0:ℤ) := by decide
    change Kept (Loadable m) _ _ ↔ (g.chrdev = true → g.vmalloc = true ∧ g.proc = true)
    unfold Kept
    by_cases hg : g.chrdev = true
    · by_cases hall : g.vmalloc = true ∧ g.proc = true
      · simp [Module.component, mytimerInit_taken h g hc hg hp hall, hall]
      · have hmiss : ¬ (h.procEntry = false ∧ g.vmalloc = true ∧ g.proc = true) :=
          fun hr => hall hr.2
        simp only [Module.component, mytimerInit_stranded h g hc hg hmiss, if_neg hnomem]
        refine ⟨fun hkept => ?_, fun hduty => absurd (hduty hg) hall⟩
        cases ((loadable_iff m _).mp hkept).1
    · rw [Bool.not_eq_true] at hg
      simp only [Module.component, mytimerInit_refused h g hg, if_neg hbusy]
      refine ⟨fun _ hyes => ?_, fun _ => hl⟩
      rw [hg] at hyes
      cases hyes
  unload h h' d _ _ hu := by
    obtain rfl := Option.some.inj hu
    exact ⟨fun _ => trivial, fun _ => (loadable_iff m _).mpr ⟨rfl, rfl⟩⟩
  inside _ _ _ _ _ _ _ _ := ⟨fun _ => trivial, fun _ => trivial⟩
  outside h h' e hl hout := by
    obtain ⟨n, -, rfl⟩ := Option.map_eq_some_iff.mp hout
    exact (loadable_iff m _).mpr ((loadable_iff m h).mp hl)
  loadInv _ _ _ _ := trivial
  insideInv _ _ _ _ _ _ _ := trivial

/-- What keeps a load from succeeding keeps every later one. -/
theorem stuck_step (s t : Lifecycle.State (Host F) D) (e : Lifecycle.Event Grants E)
    (hs : ¬ Kept (Loadable m) (fun _ _ => True) s) (h : m.component.step s e = some t) :
    ¬ Kept (Loadable m) (fun _ _ => True) t := by
  have hbusy : ¬ -EBUSY = (0:ℤ) := by decide
  have hnomem : ¬ -ENOMEM = (0:ℤ) := by decide
  -- stuck, the module is out
  have hmem (d : D) : s.memory ≠ some d := by
    intro hd
    simp [Kept, hd] at hs
  cases m.component.step_did s t e h with
  | load g hm ht =>
    have hheld : ¬ (s.host.chrdev = false ∧ s.host.procEntry = false) := by
      simpa [Kept, hm, loadable_iff] using hs
    rw [ht]
    unfold Kept
    by_cases hc : s.host.chrdev = true
    · simp only [Module.component, mytimerInit_busy s.host g hc, if_neg hbusy, loadable_iff]
      exact hheld
    · rw [Bool.not_eq_true] at hc
      have hp : ¬ s.host.procEntry = false := fun hp => hheld ⟨hc, hp⟩
      by_cases hg : g.chrdev = true
      · simp only [Module.component, mytimerInit_stranded s.host g hc hg (fun hr => hp hr.1),
          if_neg hnomem, loadable_iff]
        exact fun hr => hp hr.2
      · rw [Bool.not_eq_true] at hg
        simp only [Module.component, mytimerInit_refused s.host g hg, if_neg hbusy, loadable_iff]
        exact hheld
  | unload d hd => exact absurd hd (hmem d)
  | inside e d d' hd => exact absurd hd (hmem d)
  | outside e hm ht ho =>
    obtain ⟨n, -, hn⟩ := Option.map_eq_some_iff.mp ho
    simp only [Kept, hm, ht, loadable_iff] at hs ⊢
    rw [← hn]
    exact hs

/-- After a run, if the module is out, a load that is granted everything succeeds exactly when no
load of the run got the major number and then missed something. -/
theorem loadable_end_iff (now : ℕ) (es : List (Lifecycle.Event Grants E))
    (t : Lifecycle.State (Host F) D)
    (h : run m.component.step (fun _ _ => true) ⟨booted now, none⟩ es = some t) :
    (t.memory = none → Loadable m t.host) ↔
      Meets m.component.step (duty (D := D) fun _ => True).Met ⟨booted now, none⟩ es := by
  have hstart : Loadable m (booted now) := (loadable_iff m _).mpr ⟨rfl, rfl⟩
  rw [← Component.kept_iff (honours_loadable m) hstart h,
    always_iff_last (fun s e t hs _ hst => stuck_step m s t e hs hst) h]
  unfold Kept
  cases t.memory with
  | none => simp
  | some d => simp

/-- The duty, computed. -/
def dutyCheck (Stops : D → Prop) [DecidablePred Stops] (s : Lifecycle.State (Host F) D) :
    Lifecycle.Event Grants E → Bool
  | .load g => !g.chrdev || (g.vmalloc && g.proc)
  | .unload => s.memory.all fun d => decide (Stops d)
  | .inner _ => true

theorem met_of_check (Stops : D → Prop) [DecidablePred Stops] (s : Lifecycle.State (Host F) D)
    (e : Lifecycle.Event Grants E) (h : dutyCheck Stops s e = true) : (duty Stops).Met s e := by
  cases e with
  | load g =>
    intro hg
    simpa [dutyCheck, hg] using h
  | unload =>
    intro d hd
    have hstops : decide (Stops d) = true := by simpa [dutyCheck, hd] using h
    change Stops d
    exact of_decide_eq_true hstops
  | inner e => exact fun _ _ => trivial

end Reload

section Lab3
open Lab3 (maxTimers)
variable (cfg : Lab3.Config)

/-- The lab3 driver. -/
def lab3 : Module Lab3.Driver Lab3.Event Lab3.Handler where
  data := Lab3.Driver.mytimerInit
  armed d := ((List.finRange maxTimers).map fun k => (d.mytimerExit.timers k).timer).filter
    (·.linked)
  step now d e := (Lab3.step cfg ⟨now, d⟩ e).map fun s => (s.now, s.driver)
  ticks
    | .tick n => some n
    | _ => none

/-- Every armed timer has its flag, and lies below the capacity of the moment. No timer was set up
anew while it was pending. -/
def Lab3Stops (d : Lab3.Driver) : Prop :=
  (∀ k, (d.timers k).timer.pending = true → (d.timers k).Active ∧ (k.val:ℤ) < d.allowedTimers) ∧
    d.Unstray

instance (d : Lab3.Driver) : Decidable (Lab3Stops d) :=
  inferInstanceAs (Decidable ((∀ _, _ → _) ∧ d.Unstray))

/-- One pass of the loop stops its timer if that has its flag and lies below the capacity. -/
theorem exitPass_pending (d : Lab3.Driver) (i j : Fin maxTimers) :
    (((d.exitPass i).timers j).timer.pending = true ↔ (d.timers j).timer.pending = true ∧
        ¬ (j = i ∧ (d.timers i).Active ∧ (i.val:ℤ) < d.allowedTimers)) ∧
      (j ≠ i → (d.exitPass i).timers j = d.timers j) ∧
        (d.exitPass i).allowedTimers = d.allowedTimers := by
  unfold Lab3.Driver.exitPass
  split_ifs with hc
  · obtain ⟨hlt, hp, hact⟩ := hc
    have hstop : (Lab3.Driver.stopTimer (d.timers i)).timer.pending = false := by
      simp [Lab3.Driver.stopTimer, hp, hact, TimerList.delTimer]
    refine ⟨?_, fun hj => Function.update_of_ne hj _ _, rfl⟩
    change (Function.update d.timers i _ j).timer.pending = true ↔ _
    by_cases hj : j = i
    · subst hj
      rw [Function.update_self, hstop]
      simp [hact, hlt]
    · simp [hj]
  · refine ⟨⟨fun hp => ⟨hp, ?_⟩, fun h => h.1⟩, fun _ => rfl, rfl⟩
    rintro ⟨rfl, hact, hlt⟩
    exact hc ⟨hlt, hp, hact⟩

theorem lab3_armed_iff (d : Lab3.Driver) : (lab3 cfg).armed d = [] ↔ Lab3Stops d := by
  have hexit : d.mytimerExit = (d.exitPass 0).exitPass 1 := rfl
  obtain ⟨hp0, ho0, ha0⟩ := (forall_and.mp (exitPass_pending d 0)).imp id forall_and.mp
  obtain ⟨hp1, ho1, -⟩ := (forall_and.mp (exitPass_pending (d.exitPass 0) 1)).imp id forall_and.mp
  -- a pass of the exit stops an active timer within the allowed ones, and no other
  have hpending (k : Fin maxTimers) : (d.mytimerExit.timers k).timer.pending = true ↔
      (d.timers k).timer.pending = true ∧
        ¬ ((d.timers k).Active ∧ (k.val:ℤ) < d.allowedTimers) := by
    rw [hexit]
    obtain rfl | rfl := Lab3.slot_cases k
    · rw [hp1, hp0]
      simp
    · rw [hp1, hp0, ho0 1 (by decide), ha0 1]
      simp
  have hlinked (k : Fin maxTimers) : (d.mytimerExit.timers k).timer.linked = true ↔
      ((d.timers k).timer.pending = true ∧
        ¬ ((d.timers k).Active ∧ (k.val:ℤ) < d.allowedTimers)) ∨
      (d.timers k).timer.stray = true := by
    rw [TimerList.linked, Bool.or_eq_true, hpending, Lab3.mytimerExit_stray]
  constructor
  · intro hnone
    have hfree (k : Fin maxTimers) : ¬ (d.mytimerExit.timers k).timer.linked = true := by
      intro hk
      have hmem : (d.mytimerExit.timers k).timer ∈ (lab3 cfg).armed d :=
        List.mem_filter.mpr ⟨List.mem_map_of_mem (List.mem_finRange k), hk⟩
      rw [hnone] at hmem
      cases hmem
    constructor
    · intro k hk
      by_contra hstays
      exact hfree k ((hlinked k).mpr (Or.inl ⟨hk, hstays⟩))
    · intro k
      rw [← Bool.not_eq_true]
      exact fun hk => hfree k ((hlinked k).mpr (Or.inr hk))
  · rintro ⟨hstops, hstray⟩
    apply List.filter_eq_nil_iff.mpr
    intro t ht hp
    obtain ⟨k, -, rfl⟩ := List.mem_map.mp ht
    rcases (hlinked k).mp hp with ⟨hk, hstays⟩ | hk
    · exact hstays (hstops k hk)
    · rw [hstray k] at hk
      cases hk

theorem lab3_stopping : Stopping (lab3 cfg) (fun _ => True) Lab3Stops where
  data _ := trivial
  step _ _ _ _ _ _ _ := trivial
  stops d _ := lab3_armed_iff cfg d

/-- Over a run of loads, unloads and everything the loaded driver does, the kernel has everything
back whenever the module is out exactly when each load that got the major number got the rest, and
each unload found every armed timer flagged and below the capacity, and none that had been set up
anew while it was pending. -/
theorem lab3_loads_kept_iff (now : ℕ) (es : List (Lifecycle.Event Grants Lab3.Event))
    (t : Lifecycle.State (Host Lab3.Handler) Lab3.Driver)
    (h : run (lab3 cfg).component.step (fun _ _ => true) ⟨booted now, none⟩ es = some t) :
    Always (lab3 cfg).component.step (Kept Clean fun h _ => Tidy h) ⟨booted now, none⟩ es ↔
      Meets (lab3 cfg).component.step (duty Lab3Stops).Met ⟨booted now, none⟩ es :=
  Component.kept_iff (honours (lab3_stopping cfg)) (booted_clean now) h

/-- A load that is refused the number, one that gets everything, two timers that run at the unload,
and another load. -/
def sampleLoads : List (Lifecycle.Event Grants Lab3.Event) :=
  [.load ⟨false, true, true⟩, .load allGranted, .inner (Lab3.sampleWrite 61 (by decide) "-m 2 x"),
    .inner (Lab3.sampleWrite 61 (by decide) "-s 5 ink"), .inner (.tick 300),
    .inner (Lab3.sampleWrite 62 (by decide) "-s 8 jar"), .unload, .inner (.tick 1100),
    .load allGranted]

set_option maxRecDepth 8192 in
theorem lab3_loads_kept_iff_run : ∃ t,
    run (lab3 Lab3.sampleConfig).component.step (fun _ _ => true) ⟨booted 0, none⟩ sampleLoads =
        some t ∧ t.memory.isSome = true ∧ t.host.now = 1400 ∧
      Always (lab3 Lab3.sampleConfig).component.step (Kept Clean fun h _ => Tidy h)
        ⟨booted 0, none⟩ sampleLoads := by
  have hrun : (run (lab3 Lab3.sampleConfig).component.step (fun _ _ => true) ⟨booted 0, none⟩
      sampleLoads).any (fun t => t.memory.isSome = true ∧ t.host.now = 1400) = true := by decide
  obtain ⟨t, ht, hp⟩ := (Option.any_eq_true _ _).mp hrun
  obtain ⟨hin, hnow⟩ := of_decide_eq_true hp
  have hmeets : (run (lab3 Lab3.sampleConfig).component.step (dutyCheck Lab3Stops)
      ⟨booted 0, none⟩ sampleLoads).isSome = true := by decide
  obtain ⟨u, hu⟩ := Option.isSome_iff_exists.mp hmeets
  exact ⟨t, ht, hin, hnow, (lab3_loads_kept_iff Lab3.sampleConfig 0 sampleLoads t ht).mpr
    (meets_of_run (met_of_check Lab3Stops) hu)⟩

/-- After a run, if the module is out, a load that is granted everything succeeds exactly when no
load of the run got the major number and then missed something. -/
theorem lab3_loadable_iff (now : ℕ) (es : List (Lifecycle.Event Grants Lab3.Event))
    (t : Lifecycle.State (Host Lab3.Handler) Lab3.Driver)
    (h : run (lab3 cfg).component.step (fun _ _ => true) ⟨booted now, none⟩ es = some t) :
    (t.memory = none → Loadable (lab3 cfg) t.host) ↔
      Meets (lab3 cfg).component.step (duty fun _ => True).Met ⟨booted now, none⟩ es :=
  loadable_end_iff (lab3 cfg) now es t h

/-- The `/proc` entry is missed once, and no later load gets through. -/
theorem lab3_loadable_iff_run : ∃ t,
    run (lab3 Lab3.sampleConfig).component.step (fun _ _ => true) ⟨booted 0, none⟩
        [.load allGranted, .unload, .load ⟨true, true, false⟩] = some t ∧
      ¬ (t.memory = none → Loadable (lab3 Lab3.sampleConfig) t.host) := by
  have hsome : (run (lab3 Lab3.sampleConfig).component.step (fun _ _ => true) ⟨booted 0, none⟩
      [.load allGranted, .unload, .load ⟨true, true, false⟩]).isSome = true := by decide
  obtain ⟨t, ht⟩ := Option.isSome_iff_exists.mp hsome
  refine ⟨t, ht, fun hload => ?_⟩
  have hmeets := (lab3_loadable_iff Lab3.sampleConfig 0 _ t ht).mp hload
  -- the third label is the load that breaks its duty
  have hlast := ((hmeets.2 _ rfl).2 _ rfl).1 rfl
  cases hlast.2

end Lab3

section Devin
variable (cfg : Lab3.Config)

/-- The older driver. -/
def devin : Module Devin.Driver Devin.Event Devin.Handler where
  data := Devin.Driver.mytimerInit
  armed d := [d.mytimerExit.timer.timer].filter (·.linked)
  step now d e := (Devin.step cfg ⟨now, d⟩ e).map fun s => (s.now, s.driver)
  ticks
    | .tick n => some n
    | _ => none

/-- The message that waits, if there is one, fits its array with its NUL. -/
def DevinStops (d : Devin.Driver) : Prop := ∀ a, d.alarm = some a → a.msg.length ≤ 127

instance (d : Devin.Driver) : Decidable (DevinStops d) :=
  decidable_of_iff (d.alarm.all (fun a => decide (a.msg.length ≤ 127)) = true)
    (by cases h : d.alarm <;> simp [DevinStops, h])

theorem devin_armed_iff (load : ℕ) (d : Devin.Driver) (h : Devin.Inv load d) :
    (devin cfg).armed d = [] ↔ DevinStops d := by
  change [d.mytimerExit.timer.timer].filter (·.linked) = [] ↔ _
  rw [List.filter_eq_nil_iff]
  simp only [List.mem_singleton, forall_eq]
  have hstray := h.stray
  unfold DevinStops
  by_cases hp : d.timer.timer.pending = true
  · rw [Devin.alarm_of_pending d hp]
    simp only [Option.some.injEq, forall_eq']
    rw [← h.active_iff hp]
    by_cases hact : d.timer.Active
    · simp [Devin.Driver.mytimerExit, hp, hact, TimerList.delTimer, TimerList.linked, hstray]
    · simp [Devin.Driver.mytimerExit, hp, hact, TimerList.linked]
  · rw [Devin.alarm_of_idle d (by simpa using hp)]
    simp [Devin.Driver.mytimerExit, hp, TimerList.linked, hstray]

theorem devin_stopping : Stopping (devin cfg) (fun d => ∃ load, Devin.Inv load d) DevinStops where
  data now := ⟨now, Devin.inv_init now⟩
  step now now' d d' e := by
    rintro ⟨load, hinv⟩ hstep
    obtain ⟨s, hs, heq⟩ := Option.map_eq_some_iff.mp hstep
    obtain ⟨-, rfl⟩ := Prod.mk.inj heq
    exact ⟨load, (Devin.step_board cfg load ⟨now, d⟩ hinv e).1 s hs⟩
  stops d := fun ⟨load, hinv⟩ => devin_armed_iff cfg load d hinv

/-- A timer runs at the first unload, and the second load finds everything free. -/
def sampleDevinLoads : List (Lifecycle.Event Grants Devin.Event) :=
  [.load allGranted, .inner (Devin.sampleWrite 63 (by decide) (ascii "-s 7 bun")), .unload,
    .inner (.tick 700), .load allGranted]

end Devin

end DevKota.Mytimer
