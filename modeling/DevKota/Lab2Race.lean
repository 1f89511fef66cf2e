import DevKota.Lab2System
import DevKota.Lab2Table

/-! What becomes of the room that a client of the lab2 driver has read, by the time of its write. -/
namespace DevKota.Lab2
open CString Kernel SlotMap Runs

/-- The request goes to a slot that is free. -/
def Driver.takesSlot (d : Driver) : Request → Bool
  | .set _ m => (d.findAvailableTimer m).any fun index =>
      decide (0 ≤ index) && (d.gTimer index.toNat).any fun s => s.timer.function.isNone
  | _ => false

/-- What an event writes to the device, with the outcome of the allocation. -/
def SysEvent.writes (s : Sys) : SysEvent → Option (UserBuf × Bool)
  | .call uid _ alloc _ => ((s.clients[uid]?).bind Client.writes).map fun buf => (buf, alloc)
  | .write buf alloc => some (buf, alloc)
  | _ => none

/-- The new timers that an event makes. -/
def taken (s : Sys) (e : SysEvent) : ℕ :=
  if (e.writes s).any fun w => s.driver.takesSlot (requestOf w.1) then 1 else 0

/-- The slots that an event frees. A timer of an earlier table frees none of this one. -/
def released (s : Sys) : SysEvent → ℕ
  | .fire t _ => if s.driver.gTimers = some t then 1 else 0
  | _ => 0

/-- Every message gets its block, and nobody asks for another table. -/
def Settled (s : Sys) (e : SysEvent) : Prop :=
  ∀ buf alloc, e.writes s = some (buf, alloc) → alloc = true ∧
    ((∃ e, requestOf buf = .malformed e) ∨ ∃ seconds m, requestOf buf = .set seconds m)

section Room
variable (cfg : Config) (now : ℕ) (d d' : Driver) (n : ℕ)

theorem finite_map (h : Tabled d n) : {m | d.map n m ≠ none}.Finite := finite_entries _ h.keyed

theorem size_map_le (h : Tabled d n) : size (d.map n) ≤ n := by
  rw [size_map d n h]
  exact occupied_card_le _

/-- A free slot is taken exactly by a message that the table does not have while it has room. -/
theorem takesSlot_iff (h : Tabled d n) (seconds : ℤ) (m : List Byte) :
    d.takesSlot (.set seconds m) = true ↔ d.map n m = none ∧ size (d.map n) < n := by
  obtain ⟨index, hf⟩ := Option.ne_none_iff_exists'.mp
    ((tabled_safe ⟨1, by decide, by decide⟩ d n h).search m)
  simp only [Driver.takesSlot, hf, Option.any_some]
  rcases findAvailableTimer_cases d m index hf with ⟨t, i, s, rfl, hc⟩ | ⟨rfl, hnone⟩
  · have hs : d.gTimer i = some s := by rw [gTimer_slot d t i hc.table, hc.slot]
    rw [Int.toNat_natCast, hs, Option.any_some, decide_eq_true (Int.natCast_nonneg i), Bool.true_and]
    -- the slot that is chosen has the message, or is the first free one
    rcases hc.choice with ⟨ha, hm⟩ | ⟨hidle, hnone⟩
    · have hpresent := (map_eq_some d n h m s.timer.due).mpr ⟨i, s, hs, ha, hm, rfl⟩
      have hact : s.timer.function = some Callback.timerCb := ha
      simp [hpresent, hact]
    · have hfree : s.timer.function.isNone = true := by
        rw [← isSome_function] at hidle
        simpa using hidle
      have habsent := map_absent d n h t m hc.table hnone
      have hroom := (size_lt_iff d n h).mpr ⟨i, s, hs, hidle⟩
      exact ⟨fun _ => ⟨habsent, hroom⟩, fun _ => hfree⟩
  · have hneg : ¬ 0 ≤ -ENOMEM := by decide
    rw [decide_eq_false hneg, Bool.false_and]
    constructor
    · intro hfalse
      cases hfalse
    · rintro ⟨-, hroom⟩
      obtain ⟨i, s, hs, hidle⟩ := (size_lt_iff d n h).mp hroom
      exact absurd (full_active d n h m hf i s hs) hidle

/-- A write that asks for no table keeps it and fills at most the slot it takes. -/
theorem write_balance (h : Tabled d n) (buf : UserBuf) (r : ℤ)
    (hreq : (∃ e, requestOf buf = .malformed e) ∨ ∃ seconds m, requestOf buf = .set seconds m)
    (hw : d.timerWrite cfg now buf true = some (d', r)) :
    Tabled d' n ∧
      size (d'.map n) = size (d.map n) + if d.takesSlot (requestOf buf) then 1 else 0 := by
  rcases hreq with ⟨e, he⟩ | ⟨seconds, m, hset⟩
  · obtain ⟨rfl, -⟩ := malformed_write cfg now d d' buf true r e he hw
    rw [he]
    exact ⟨h, rfl⟩
  · obtain ⟨d'', hw', htabled, hmap, -, -⟩ := write_assigns cfg now d n h buf seconds m hset
    rw [hw] at hw'
    obtain ⟨rfl, -⟩ := Prod.mk.inj (Option.some.inj hw')
    refine ⟨htabled, ?_⟩
    rw [hmap, hset]
    -- a present message, an absent one with room, an absent one without
    unfold assign
    cases hm : d.map n m with
    | some due =>
      have hnot : ¬ d.takesSlot (.set seconds m) = true := by
        rw [takesSlot_iff d n h, hm]
        simp
      rw [if_neg hnot]
      exact size_update _ m _ (by rw [hm]; simp)
    | none =>
      by_cases hroom : size (d.map n) < n
      · have hroom' : (size (d.map n) : ℤ) < n := by exact_mod_cast hroom
        rw [if_pos ((takesSlot_iff d n h seconds m).mpr ⟨hm, hroom⟩)]
        simp only [if_pos hroom']
        exact size_insert _ m (finite_map d n h) _ hm
      · have hroom' : ¬ (size (d.map n) : ℤ) < n := by exact_mod_cast hroom
        rw [if_neg fun ht => hroom ((takesSlot_iff d n h seconds m).mp ht).2]
        simp only [if_neg hroom']
        rfl

theorem fire_balance (h : Tabled d n) (t i : ℕ) (s' : State)
    (hs : step cfg ⟨now, d⟩ (.fire t i) = some s') :
    Tabled s'.driver n ∧
      size (s'.driver.map n) + (if d.gTimers = some t then 1 else 0) = size (d.map n) := by
  rcases step_cases cfg _ s' _ hs with
    ⟨ticks, he, -⟩ | ⟨buf, alloc, r, he, -⟩ | ⟨t', i', x, he, hx, hdue, hd⟩
  · cases he
  · cases he
  · obtain ⟨rfl, rfl⟩ := Event.fire.inj he
    by_cases ht : d.gTimers = some t
    · obtain ⟨d', m, he', htabled, -, hm, hmap, -⟩ := fire_erases d n h t i x ht hx hdue.1
      rw [he'] at hd
      obtain rfl := Option.some.inj hd
      rw [if_pos ht, hmap]
      exact ⟨htabled, size_erase _ m (finite_map d n h) (by rw [hm]; simp)⟩
    · obtain ⟨d', text, he', htabled, -, hmap, -⟩ := fire_keeps d n h t i x ht hx hdue.1
      rw [he'] at hd
      obtain rfl := Option.some.inj hd
      rw [if_neg ht, hmap]
      exact ⟨htabled, rfl⟩

end Room

section Steps
variable (cfg : Config) (n : ℕ) (s s' : Sys) (e : SysEvent)

theorem sysStep_noZero (h : NoZero s.driver) (hs : sysStep cfg s e = some s') : NoZero s'.driver := by
  rcases sysStep_driver cfg s s' e hs with hd | ⟨e', he⟩
  · rw [hd]
    exact h
  · exact step_noZero cfg _ _ e' h he

/-- The table stays, and the entries are moved by what is taken and what is released. -/
theorem sysStep_balance (h : Tabled s.driver n) (hg : Settled s e) (hs : sysStep cfg s e = some s') :
    Tabled s'.driver n ∧
      size (s'.driver.map n) + released s e = size (s.driver.map n) + taken s e := by
  cases e with
  | start job =>
    obtain rfl := Option.some.inj hs
    exact ⟨h, rfl⟩
  | call uid stack alloc alloc' =>
    obtain ⟨c, hc, hs⟩ := Option.bind_eq_some_iff.mp hs
    obtain ⟨r, hr, rfl⟩ := Option.map_eq_some_iff.mp hs
    simp only [taken, released, SysEvent.writes, Settled, hc, Option.bind_some] at hg ⊢
    -- a call reads, or it writes like anyone else
    rcases call_driver cfg s.now s.driver c stack alloc alloc' r hr with
      ⟨hw, hd⟩ | ⟨buf, ret, hw, hwrite⟩
    · rw [hw, hd]
      exact ⟨h, rfl⟩
    · rw [hw] at hg ⊢
      obtain ⟨rfl, hreq⟩ := hg buf alloc rfl
      exact write_balance cfg s.now s.driver r.1 n h buf ret hreq hwrite
  | write buf alloc =>
    obtain ⟨r, hw, rfl⟩ := Option.map_eq_some_iff.mp hs
    obtain ⟨rfl, hreq⟩ := hg buf alloc rfl
    exact write_balance cfg s.now s.driver r.1 n h buf r.2 hreq hw
  | tick ticks =>
    obtain rfl := Option.some.inj hs
    exact ⟨h, rfl⟩
  | fire t i =>
    obtain ⟨u, hu, rfl⟩ := Option.map_eq_some_iff.mp hs
    exact fire_balance cfg s.now s.driver n h t i u hu

end Steps

section Runs
variable (cfg : Config) (n : ℕ)

theorem made_noZero (s : State) (h : Made cfg n s) : NoZero s.driver := by
  cases h with
  | load now hn => exact noZero_reach cfg now true _ (reach_refl _)
  | resize load loadAlloc s d hs hc =>
    have he := perform_effect cfg s.now s.driver d true (.resize n) 0 hc
    apply effect_noZero cfg s.now s.driver d true _ 0 (noZero_reach cfg load loadAlloc s hs) _ he
    intro seconds m hset
    cases hset

theorem settled_reach (hsize : n*sizeofMsgTimer < 2^32) (s0 s : Sys)
    (h0 : Made cfg n ⟨s0.now, s0.driver⟩) (h : Reach (sysStep cfg) Settled s0 s) :
    Tabled s.driver n ∧ NoZero s.driver := by
  apply reach_invariant (I := fun s : Sys => Tabled s.driver n ∧ NoZero s.driver) _ h
  · exact ⟨made_tabled cfg n hsize _ h0, made_noZero cfg n _ h0⟩
  · intro s e t hi hg hs
    exact ⟨(sysStep_balance cfg n s t e hi.1 hg hs).1, sysStep_noZero cfg s t e hi.2 hs⟩

/-- A client that goes on to the write of a new timer has read that there is room. -/
theorem room_of_read (d : Driver) (now : ℕ) (h : Tabled d n) (hz : NoZero d)
    (hf : FitsRead cfg now d) (c : Client) (msg : Arg) (stack : Buffer 128) (alloc alloc' : Bool)
    (r : Driver × Client) (hr : c.readCall cfg now d msg stack alloc alloc' = some r)
    (buffer : Buffer 128) (hadd : r.2.phase = .adding buffer) : size (d.map n) < n := by
  obtain ⟨q, hq, hr⟩ := Option.bind_eq_some_iff.mp hr
  obtain ⟨⟨flag, buffer'⟩, hp, rfl⟩ := Option.map_eq_some_iff.mp hr
  obtain ⟨slots, lines, text, room, hs⟩ := fits_shown cfg now d h.inv hz hf
  rw [setDecode_eq] at hp
  cases alloc with
  | false =>
    -- the flag on its own cannot be decoded
    have htwo := (listDecode_length stack q.bytes flag buffer' hp).1
    have hone := clientRead_unlisted cfg now d alloc' q hq
    omega
  | true =>
    rw [hs.read alloc'] at hq
    obtain rfl := Option.some.inj hq
    obtain ⟨buffer'', hdecode, -⟩ := listDecode_whole stack text room hs.zero hs.length
    rw [hdecode] at hp
    obtain ⟨rfl, rfl⟩ := Prod.mk.inj (Option.some.inj hp)
    have hroom := (checkForRoom_eq d n h).symm.trans hs.room
    by_contra hfull
    rw [if_neg hfull] at hroom
    obtain rfl := Option.some.inj hroom
    simp only [Client.check, if_true] at hadd
    split_ifs at hadd

/-- The write of a new timer exits with success, and leaves its message out exactly when the table
is full without it. -/
theorem addCall_lost_iff (d : Driver) (now : ℕ) (h : Tabled d n) (c : Client) (sec msg : Arg)
    (buffer : Buffer 128) (seconds : ℤ) (m : List Byte)
    (hreq : requestOf (setBuf sec msg) = .set seconds m) :
    ∃ d', c.addCall cfg now d sec msg buffer true = some (d', { c with phase := .exited true }) ∧
      (d'.map n m = none ↔ d.map n m = none ∧ size (d.map n) = n) := by
  obtain ⟨d', hw, -, hmap, -, -⟩ := write_assigns cfg now d n h (setBuf sec msg) seconds m hreq
  refine ⟨d', ?_, ?_⟩
  · rw [Client.addCall, sendSet_eq, hw, Option.map_some, Option.map_some]
    simp
  · have hle := size_map_le d n h
    rw [hmap, assign]
    cases hm : d.map n m with
    | some due => simp
    | none =>
      simp only [true_and]
      split_ifs with hroom
      · have hlt : size (d.map n) < n := by exact_mod_cast hroom
        simp [hlt.ne]
      · have hge : ¬ size (d.map n) < n := by exact_mod_cast hroom
        exact ⟨fun _ => by omega, fun _ => hm⟩

end Runs

def settledCheck (s : Sys) (e : SysEvent) : Bool :=
  (e.writes s).all fun w => w.2 && match requestOf w.1 with
    | .malformed _ => true
    | .set _ _ => true
    | _ => false

theorem settled_of_check (s : Sys) (e : SysEvent) (h : settledCheck s e = true) : Settled s e := by
  intro buf alloc hw
  rw [settledCheck, hw, Option.all_some, Bool.and_eq_true] at h
  refine ⟨h.1, ?_⟩
  cases hreq : requestOf buf with
  | malformed e => exact Or.inl ⟨e, rfl⟩
  | set seconds m => exact Or.inr ⟨seconds, m, rfl⟩
  | _ =>
    simp only [hreq] at h
    cases h.2

/-- The client has come to the write of a new timer, without a word. -/
def Client.isAdding (c : Client) (job : Job) : Bool :=
  match c.phase with
  | .adding _ => c.job = job && c.printed = []
  | _ => false

theorem isAdding_eq (c : Client) (job : Job) (h : c.isAdding job = true) :
    ∃ buffer, c = ⟨job, .adding buffer, []⟩ := by
  obtain ⟨job', phase, printed⟩ := c
  unfold Client.isAdding at h
  split at h
  · rename_i buffer hphase
    rw [Bool.and_eq_true, decide_eq_true_eq, decide_eq_true_eq] at h
    obtain ⟨rfl, rfl⟩ := h
    exact ⟨buffer, congrArg (fun p => (⟨_, p, []⟩ : Client)) hphase⟩
  · cases h

/-- The read of the first client, and all of the second one's calls: both see the free slot. -/
def raceEvents : List SysEvent :=
  [.call 0 (Buffer.zero 128) true true, .call 1 (Buffer.zero 128) true true,
    .call 1 (Buffer.zero 128) true true]

/-- At the write of the first client its message is not in the table, one slot of which was free
at the read and has been taken since. -/
def raceCheck (s : Sys) : Bool :=
  decide (s.clients[0]? = some ⟨.set secArg ivyArg, .opened, []⟩) &&
    decide ((occupied (s.driver.entryTable 2)).card = 1) &&
    decide (tally (sysStep sampleConfig) taken s raceEvents = 1) &&
    decide (tally (sysStep sampleConfig) released s raceEvents = 0) &&
    (run (sysStep sampleConfig) settledCheck s raceEvents).any fun s2 =>
      (s2.clients[0]?).any (·.isAdding (.set secArg ivyArg)) &&
        decide (∀ i : Fin 2, (s2.driver.entry i).all fun e => e.1 ≠ ascii "ivy")

end DevKota.Lab2
