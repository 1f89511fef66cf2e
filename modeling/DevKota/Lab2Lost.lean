import DevKota.Lab2Ledger

/-! The blocks that the lab2 driver loses for good, in runs with resizes. -/
namespace DevKota.Lab2
open CString Kernel Runs Ledgers

namespace Driver

/-- The blocks that something can still free: the unload the table, a callback its message. -/
def reached (d : Driver) : Set ℕ := {id | d.currentBlock = some id ∨ Holds d id}

/-- The blocks that nothing can free any more. -/
def lost (d : Driver) : Set ℕ := {id | (id < d.nextBlock ∧ id ∉ d.freed) ∧ id ∉ d.reached}

end Driver

/-- The block of an active slot's message, if it has one. -/
def MsgTimer.block (s : MsgTimer) : Option ℕ :=
  match s.message with
  | .block id _ => if s.Active then some id else none
  | _ => none

/-- The block that carrying out a request puts out of reach: a resize that of the table, an
update that of the old message. -/
def droppedBy (d : Driver) : Request → Option ℕ
  | .resize _ => d.currentBlock
  | .set _ message =>
    (d.findAvailableTimer message).bind fun index =>
      if 0 ≤ index then
        (d.gTimers.bind fun t => d.slot t index.toNat).bind MsgTimer.block
      else none
  | _ => none

def dropped (s : State) : Event → Option ℕ
  | .write buf _ => droppedBy s.driver (requestOf buf)
  | _ => none

/-- The blocks dropped along a run, oldest first. -/
def allDropped (cfg : Config) (s : State) : List Event → List ℕ
  | [] => []
  | e :: es =>
    (dropped s e).toList ++ ((step cfg s e).map fun t => allDropped cfg t es).getD []

/-- What holds of the blocks in every state of a run, resizes included. -/
structure Accounted (d : Driver) : Prop where
  inv : Inv d
  nodup : d.freed.Nodup
  tables (t t' b : ℕ) : d.tableBlock t = some b → d.tableBlock t' = some b → t' = t
  -- only an array of no bytes has none
  block (t i : ℕ) (s : MsgTimer) : d.slot t i = some s → ∃ b, d.tableBlock t = some b
  table (id : ℕ) : id ∈ d.tableBlocks → id < d.nextBlock ∧ id ∉ d.freed
  apart (id : ℕ) : id ∈ d.tableBlocks → ¬ Holds d id
  within (t i : ℕ) (s : MsgTimer) : d.gTimers = some t → d.slot t i = some s → s.Active →
    (i:ℤ) < d.gNumTimers

section Account
variable (d d' : Driver)

theorem mem_held_iff (s : MsgTimer) (id : ℕ) : id ∈ s.held ↔ s.block = some id := by
  unfold MsgTimer.held MsgTimer.block
  cases hm : s.message with
  | junk => simp
  | null => simp
  | block id' text =>
    by_cases ha : s.Active
    · simp [ha, eq_comm]
    · simp [ha]

/-- Everything reached is live. -/
theorem reached_live (h : Accounted d) (id : ℕ) (hid : id ∈ d.reached) :
    id < d.nextBlock ∧ id ∉ d.freed := by
  rcases hid with htable | hheld
  · exact h.table id (currentBlock_mem d id htable)
  · exact holds_live d h.inv id hheld

def Driver.account (d : Driver) (h : Accounted d) : Account where
  ledger := ⟨d.nextBlock, d.freed, h.nodup, h.inv.freed⟩
  reached := d.reached
  live := reached_live d h

theorem account_lost (h : Accounted d) : (d.account h).lost = d.lost := rfl

section Store
variable (t i : ℕ) (s0 s : MsgTimer) (hs : Stores d d' t i s0 s) (h : Inv d)
include hs h

/-- A store changes the blocks held by the two of its slot. -/
theorem holds_store_iff (id : ℕ) : Holds d' id ↔ (Holds d id ∨ id ∈ s.held) ∧ id ∉ s0.held := by
  constructor
  · rintro ⟨t', i', s', hs', hheld⟩
    rcases stored_cases d d' t i s hs.slot t' i' s' hs' with ⟨-, rfl⟩ | ⟨hti, hkept⟩
    · refine ⟨Or.inr hheld, fun hold => ?_⟩
      -- the new block is not handed out yet, and the old one is
      have hlt := (holds_live d h id (old_held d d' t i s0 s' hs id hold)).1
      rw [stored_held d d' t i s0 s' hs id hheld] at hlt
      exact lt_irrefl _ hlt
    · refine ⟨Or.inl ⟨t', i', s', hkept, hheld⟩, ?_⟩
      rintro ⟨ha0, text0, hm0⟩
      obtain ⟨ha', text', hm'⟩ := hheld
      exact hti (h.distinct t i s0 t' i' s' id text0 text' hs.old ha0 hm0 hkept ha' hm')
  · rintro ⟨⟨t', i', s', hs', hheld⟩ | hheld, hnot⟩
    · have hti : ¬ (t' = t ∧ i' = i) := by
        rintro ⟨rfl, rfl⟩
        rw [hs.old] at hs'
        obtain rfl := Option.some.inj hs'
        exact hnot hheld
      exact ⟨t', i', s', by rw [hs.slot, if_neg hti, hs'], hheld⟩
    · exact ⟨t, i, s, by rw [hs.slot, if_pos ⟨rfl, rfl⟩], hheld⟩

end Store

section Store
variable (t i : ℕ) (s0 s : MsgTimer) (hs : Stores d d' t i s0 s) (h : Accounted d)
  (htables : d'.tableBlock = d.tableBlock)
include hs h htables

theorem accounted_store (hnodup : d'.freed.Nodup)
    (hwithin : d.gTimers = some t → s.Active → (i:ℤ) < d.gNumTimers) : Accounted d' := by
  have hblocks := tableBlocks_eq d d' htables
  refine ⟨inv_store d d' h.inv t i s0 s hs, hnodup, htables ▸ h.tables, ?_, ?_, ?_, ?_⟩
  · intro t' i' s' hs'
    rw [htables]
    rcases stored_cases d d' t i s hs.slot t' i' s' hs' with ⟨⟨rfl, rfl⟩, -⟩ | ⟨-, hkept⟩
    · exact h.block t' i' s0 hs.old
    · exact h.block t' i' s' hkept
  · intro id hid
    rw [hblocks] at hid
    obtain ⟨hlt, hfreed⟩ := h.table id hid
    refine ⟨lt_of_lt_of_le hlt hs.nextBlock, fun hid' => ?_⟩
    rcases hs.freed id hid' with hid' | hheld
    · exact hfreed hid'
    · exact h.apart id hid (old_held d d' t i s0 s hs id hheld)
  -- a slot holds what it held, or the new block, which is no table
  · intro id hid hheld
    rw [hblocks] at hid
    rcases ((holds_store_iff d d' t i s0 s hs h.inv id).mp hheld).1 with hkept | hnew
    · exact h.apart id hid hkept
    · have hlt := (h.table id hid).1
      rw [stored_held d d' t i s0 s hs id hnew] at hlt
      exact lt_irrefl _ hlt
  · intro t' i' s' ht' hs' ha
    rw [hs.gTimers] at ht'
    rw [hs.gNumTimers]
    rcases stored_cases d d' t i s hs.slot t' i' s' hs' with ⟨⟨rfl, rfl⟩, rfl⟩ | ⟨-, hkept⟩
    · exact hwithin ht' ha
    · exact h.within t' i' s' ht' hkept ha

theorem reached_store : d'.reached = (d.reached ∪ s.held) \ s0.held := by
  have hcurrent := currentBlock_eq d d' hs.gTimers htables
  ext id
  change d'.currentBlock = some id ∨ Holds d' id ↔
    ((d.currentBlock = some id ∨ Holds d id) ∨ id ∈ s.held) ∧ id ∉ s0.held
  rw [hcurrent, holds_store_iff d d' t i s0 s hs h.inv id]
  constructor
  · rintro (htable | ⟨hheld, hnot⟩)
    · refine ⟨Or.inl (Or.inl htable), fun hold => ?_⟩
      exact h.apart id (currentBlock_mem d id htable) (old_held d d' t i s0 s hs id hold)
    · exact ⟨hheld.imp_left Or.inr, hnot⟩
  · rintro ⟨(htable | hheld) | hnew, hnot⟩
    · exact Or.inl htable
    · exact Or.inr ⟨Or.inl hheld, hnot⟩
    · exact Or.inr ⟨Or.inr hnew, hnot⟩

end Store

end Account

section Steps
variable (cfg : Config) (now : ℕ) (d d' : Driver)

/-- A store that frees nothing loses what its slot held. -/
theorem lost_store (t i : ℕ) (s0 s : MsgTimer) (hs : Stores d d' t i s0 s) (h : Accounted d)
    (h' : Accounted d') (htables : d'.tableBlock = d.tableBlock) (a : Account)
    (hlost : a.lost = d.lost) (hledger : (d'.account h').ledger = a.ledger)
    (hreached : a.reached = d.reached ∪ s.held) : d'.lost = d.lost ∪ s0.held := by
  have heq : d'.account h' = a.drop s0.held := by
    refine Account.ext hledger ?_
    change d'.reached = a.reached \ s0.held
    rw [hreached, reached_store d d' t i s0 s hs h htables]
  have hsub : a.reached ∩ s0.held = s0.held := by
    apply Set.inter_eq_right.mpr
    intro id hid
    rw [hreached]
    exact Or.inl (Or.inr (old_held d d' t i s0 s hs id hid))
  rw [← account_lost d' h', heq, Account.lost_drop, hlost, hsub]

theorem droppedBy_chosen (seconds : ℤ) (m : List Byte) (t i : ℕ) (s : MsgTimer)
    (hf : d.findAvailableTimer m = some (i:ℤ)) (hc : Chosen d t i s m) :
    droppedBy d (.set seconds m) = s.block := by
  rw [droppedBy, hf, Option.bind_some, if_pos (Int.natCast_nonneg i), hc.table, Option.bind_some,
    Int.toNat_natCast, hc.slot, Option.bind_some]

theorem held_eq (s : MsgTimer) : s.held = {id | s.block = some id} := by
  ext id
  exact mem_held_iff s id

/-- The old table of a resize goes out of reach, whether or not a new one comes. -/
theorem lost_resize (h' : Accounted d') (a : Account) (hlost : a.lost = d.lost)
    (hledger : (d'.account h').ledger = a.ledger) (hsub : d.reached ⊆ a.reached)
    (hreached : d'.reached = a.reached \ {id | d.currentBlock = some id}) :
    d'.lost = d.lost ∪ {id | d.currentBlock = some id} := by
  have heq : d'.account h' = a.drop {id | d.currentBlock = some id} :=
    Account.ext hledger hreached
  have hinter : a.reached ∩ {id | d.currentBlock = some id} = {id | d.currentBlock = some id} :=
    Set.inter_eq_right.mpr fun id hid => hsub (Or.inl hid)
  rw [← account_lost d' h', heq, Account.lost_drop, hlost, hinter]

/-- A resize that takes no block gives up the old one. -/
theorem lost_blockless (h : Accounted d) (h' : Accounted d') (hnext : d'.nextBlock = d.nextBlock)
    (hfreed : d'.freed = d.freed) (hcurrent : d'.currentBlock = none)
    (hholds : ∀ id, Holds d' id ↔ Holds d id) :
    d'.lost = d.lost ∪ {id | d.currentBlock = some id} := by
  refine lost_resize d d' h' (d.account h) rfl (Ledger.ext hnext hfreed) (subset_refl _) ?_
  ext id
  change d'.currentBlock = some id ∨ Holds d' id ↔ id ∈ d.reached ∧ d.currentBlock ≠ some id
  rw [hcurrent, hholds]
  constructor
  · rintro (htable | hheld)
    · cases htable
    · exact ⟨Or.inr hheld, fun hid => h.apart id (currentBlock_mem d id hid) hheld⟩
  · rintro ⟨hid | hheld, hnot⟩
    · exact absurd hid hnot
    · exact Or.inr hheld

theorem noTable_accounted (h : Accounted d) (n : ℤ) :
    Accounted { d with gNumTimers := n, gTimers := none } := by
  refine ⟨⟨h.inv.armed, h.inv.message, h.inv.distinct, h.inv.freed, ?_⟩, h.nodup, h.tables, h.block,
    h.table, h.apart, ?_⟩
  · intro t ht
    cases ht
  · intro t i s ht
    cases ht

theorem withTable_holds (n : ℤ) (k id : ℕ) : Holds (d.withTable n k) id ↔ Holds d id := by
  constructor
  · rintro ⟨t, i, s, hs, hheld⟩
    rcases withTable_slot d n k t i s hs with ⟨-, -, rfl⟩ | ⟨-, hold⟩
    · exact absurd hheld.1 freshSlot_idle.1
    · exact ⟨t, i, s, hold, hheld⟩
  · rintro ⟨t, i, s, hs, hheld⟩
    refine ⟨t, i, s, ?_, hheld⟩
    have hne : t ≠ d.tables.length := by
      rintro rfl
      simp [Driver.slot] at hs
    rw [slot_append d _ t i (d.withTable n k) rfl, if_neg hne, hs]

theorem withTable_currentBlock (n : ℤ) (k : ℕ) :
    (d.withTable n k).currentBlock = if kmallocSize n = 0 then none else some d.nextBlock := by
  change (d.withTable n k).tableBlock d.tables.length = _
  rw [withTable_tableBlock, if_pos rfl]

theorem nextBlock_fresh (h : Accounted d) : d.nextBlock ∉ d.tableBlocks :=
  fun hid => lt_irrefl _ (h.table _ hid).1

/-- No two tables share a block, the new one neither. -/
theorem withTable_tables (h : Accounted d) (n : ℤ) (k t t' b : ℕ)
    (hb : (d.withTable n k).tableBlock t = some b) (hb' : (d.withTable n k).tableBlock t' = some b) :
    t' = t := by
  have hnew := nextBlock_fresh d h
  rw [withTable_tableBlock] at hb hb'
  split_ifs at hb hb' with ht hsize ht' ht'
  · exact ht'.trans ht.symm
  · rw [← Option.some.inj hb] at hb'
    exact absurd ⟨t', hb'⟩ hnew
  · rw [← Option.some.inj hb'] at hb
    exact absurd ⟨t, hb⟩ hnew
  · exact h.tables t t' b hb hb'

theorem withTable_accounted (h : Accounted d) (n : ℤ) (k : ℕ) (hk : n ≤ k)
    (hsize : kmallocSize n = 0 → k = 0) : Accounted (d.withTable n k) := by
  have hnext := withTable_nextBlock d n k
  refine ⟨inv_withTable d n k h.inv hk, h.nodup, withTable_tables d h n k, ?_, ?_, ?_, ?_⟩
  · intro t i s hs
    rw [withTable_tableBlock]
    rcases withTable_slot d n k t i s hs with ⟨ht, hi, -⟩ | ⟨hne, hold⟩
    · -- a table with a slot was not asked for with a size of zero
      have hne : kmallocSize n ≠ 0 := fun hzero => by
        rw [hsize hzero] at hi
        exact Nat.not_lt_zero i hi
      exact ⟨d.nextBlock, by rw [if_pos ht, if_neg hne]⟩
    · rw [if_neg hne]
      exact h.block t i s hold
  · intro id hid
    rcases (withTable_tableBlocks d n k id).mp hid with hid | ⟨hne, rfl⟩
    · obtain ⟨hlt, hnot⟩ := h.table id hid
      exact ⟨lt_of_lt_of_le hlt hnext, hnot⟩
    · refine ⟨?_, fun hid => lt_irrefl _ (h.inv.freed _ hid)⟩
      simp [Driver.withTable, hne]
  -- the new table has a number of its own
  · intro id hid hheld
    rw [withTable_holds] at hheld
    rcases (withTable_tableBlocks d n k id).mp hid with hid | ⟨-, rfl⟩
    · exact h.apart id hid hheld
    · exact lt_irrefl _ (holds_live d h.inv _ hheld).1
  · intro t i s ht hs ha
    obtain rfl := Option.some.inj ht
    rcases withTable_slot d n k _ i s hs with ⟨-, -, rfl⟩ | ⟨hne, -⟩
    · exact absurd ha freshSlot_idle.1
    · exact absurd rfl hne

/-- A resize without memory for the new table gives up the old one and takes nothing. -/
theorem noTable_lost (h : Accounted d) (n : ℤ) :
    Driver.lost { d with gNumTimers := n, gTimers := none } =
      d.lost ∪ {id | d.currentBlock = some id} :=
  lost_blockless d _ h (noTable_accounted d h n) rfl rfl rfl fun _ => Iff.rfl

/-- With memory, the new table is reached in the place of the old one. -/
theorem withTable_lost (h : Accounted d) (n : ℤ) (k : ℕ) (hk : n ≤ k)
    (hsize : kmallocSize n = 0 → k = 0) :
    (d.withTable n k).lost = d.lost ∪ {id | d.currentBlock = some id} := by
  have h' := withTable_accounted d h n k hk hsize
  by_cases hzero : kmallocSize n = 0
  · have hcurrent : (d.withTable n k).currentBlock = none := by
      rw [withTable_currentBlock, if_pos hzero]
    exact lost_blockless d _ h h' (if_pos hzero) rfl hcurrent (withTable_holds d n k)
  · have hledger : (Driver.account _ h').ledger = (d.account h).take.ledger :=
      Ledger.ext (if_neg hzero) rfl
    refine lost_resize d _ h' (d.account h).take (Account.lost_take _) hledger
      Set.subset_union_left ?_
    ext id
    change (d.withTable n k).currentBlock = some id ∨ Holds (d.withTable n k) id ↔
      (id ∈ d.reached ∨ id = d.nextBlock) ∧ d.currentBlock ≠ some id
    rw [withTable_currentBlock, if_neg hzero, withTable_holds]
    constructor
    · rintro (hid | hheld)
      · obtain rfl := Option.some.inj hid
        exact ⟨Or.inr rfl, fun hold => nextBlock_fresh d h (currentBlock_mem d _ hold)⟩
      · exact ⟨Or.inl (Or.inr hheld), fun hid => h.apart id (currentBlock_mem d id hid) hheld⟩
    · rintro ⟨(hid | hheld) | rfl, hnot⟩
      · exact absurd hid hnot
      · exact Or.inr hheld
      · exact Or.inl rfl

/-- A request loses exactly the block that it drops. -/
theorem effect_lost (alloc : Bool) (req : Request) (r : ℤ) (h : Accounted d)
    (he : Effect cfg now d alloc req d' r) :
    Accounted d' ∧ d'.lost = d.lost ∪ {id | droppedBy d req = some id} := by
  have hnone : d.lost ∪ {id | (none : Option ℕ) = some id} = d.lost := by simp
  cases he with
  | malformed e => exact ⟨h, hnone.symm⟩
  | noTable n ha hsize => exact ⟨noTable_accounted d h n, noTable_lost d h n⟩
  | newTable n k ha hk hsize =>
    exact ⟨withTable_accounted d h n k hk hsize, withTable_lost d h n k hk hsize⟩
  | full seconds m hf =>
    refine ⟨h, ?_⟩
    have hneg : ¬ (0:ℤ) ≤ -ENOMEM := by decide
    rw [droppedBy, hf, Option.bind_some, if_neg hneg]
    exact hnone.symm
  | unfilled seconds m t i s ha hf hc =>
    have hs := stores_unfilled d t i s m hc
    have htables := tableBlock_setSlot d t i s.unfilled
    have h' := accounted_store d _ t i s _ hs h htables h.nodup fun _ _ => hc.index
    refine ⟨h', ?_⟩
    rw [droppedBy_chosen d seconds m t i s hf hc, ← held_eq]
    -- nothing is allocated
    apply lost_store d _ t i s _ hs h h' htables (d.account h) rfl rfl
    rw [held_null s.unfilled rfl, Set.union_empty]
    rfl
  | filled seconds m t i s r ha hf hc hr =>
    have hs := stores_filled cfg now d t i s m hc seconds
    have htables := tableBlock_setSlot d t i (s.filled cfg now d.nextBlock seconds m)
    have h' := accounted_store d _ t i s _ hs h htables h.nodup fun _ _ => hc.index
    refine ⟨h', ?_⟩
    rw [droppedBy_chosen d seconds m t i s hf hc, ← held_eq]
    apply lost_store d _ t i s _ hs h h' htables (d.account h).take (Account.lost_take _) rfl
    rw [held_block (s.filled cfg now d.nextBlock seconds m) d.nextBlock m rfl rfl]
    rfl

/-- A firing loses nothing: its slot gives the block up as it is freed. -/
theorem expire_lost (t i : ℕ) (h : Accounted d) (he : d.expire t i = some d') :
    Accounted d' ∧ d'.lost = d.lost := by
  obtain ⟨s, ha, hs⟩ := expire_stores d d' t i he
  obtain ⟨s', hs', -, -, -, -, hnext, hfreed⟩ := expire_cases d d' t i he
  rw [hs.old] at hs'
  obtain rfl := Option.some.inj hs'
  have htables := expire_tableBlock d d' t i he
  have hreached := reached_store d d' t i s s.fired hs h htables
  rw [held_idle _ (fired_idle s), Set.union_empty] at hreached
  have hkeep (hnodup : d'.freed.Nodup) : Accounted d' :=
    accounted_store d d' t i s _ hs h htables hnodup fun _ hact => absurd hact (fired_idle s)
  -- without a message nothing is freed; with one, the slot gives it up
  rcases hfreed with ⟨hm, hfreed⟩ | ⟨id, text, hm, hid, hfreed⟩
  · have h' := hkeep (by rw [hfreed]; exact h.nodup)
    refine ⟨h', ?_⟩
    have heq : d'.account h' = d.account h := by
      apply Account.ext (Ledger.ext hnext hfreed)
      change d'.reached = d.reached
      rw [hreached, held_null s hm, Set.sdiff_empty]
    rw [← account_lost d' h', heq, account_lost]
  · have h' := hkeep (by rw [hfreed]; exact List.nodup_cons.mpr ⟨hid, h.nodup⟩)
    refine ⟨h', ?_⟩
    have hheld : id ∈ (d.account h).reached := Or.inr ⟨t, i, s, hs.old, ha, text, hm⟩
    have heq : d'.account h' = (d.account h).release id hheld := by
      apply Account.ext (Ledger.ext hnext hfreed)
      change d'.reached = d.reached \ {id}
      rw [hreached, held_block s id text ha hm]
    rw [← account_lost d' h', heq, Account.lost_release, account_lost]

/-- A step loses exactly the block that it drops. -/
theorem step_lost (s t : State) (e : Event) (h : Accounted s.driver) (hs : step cfg s e = some t) :
    Accounted t.driver ∧ t.driver.lost = s.driver.lost ∪ {id | dropped s e = some id} := by
  have hnone : s.driver.lost ∪ {id | (none : Option ℕ) = some id} = s.driver.lost := by simp
  rcases step_cases cfg s t e hs with
    ⟨ticks, rfl, heq⟩ | ⟨buf, alloc, r, rfl, he⟩ | ⟨k, i, x, rfl, -, -, he⟩
  · rw [heq]
    exact ⟨h, hnone.symm⟩
  · exact effect_lost cfg s.now s.driver t.driver alloc _ r h he
  · obtain ⟨h', hlost⟩ := expire_lost s.driver t.driver k i h he
    exact ⟨h', hlost.trans hnone.symm⟩

theorem run_lost (s t : State) (es : List Event) (h : Accounted s.driver)
    (hr : run (step cfg) (fun _ _ => true) s es = some t) :
    Accounted t.driver ∧ t.driver.lost = s.driver.lost ∪ {id | id ∈ allDropped cfg s es} := by
  induction es generalizing s with
  | nil =>
    obtain rfl := Option.some.inj hr
    refine ⟨h, ?_⟩
    simp [allDropped]
  | cons e es ih =>
    obtain ⟨-, u, hu, hrest⟩ := run_cons hr
    obtain ⟨hacc, hlost⟩ := step_lost cfg s u e h hu
    obtain ⟨hend, hlast⟩ := ih u hacc hrest
    refine ⟨hend, ?_⟩
    rw [hlast, hlost, Set.union_assoc]
    congr 1
    ext id
    simp [allDropped, hu]

end Steps

section Unload
variable (d d' : Driver)

/-- `timers_destroy` gets to its end exactly over idle slots behind a pointer that is not NULL. -/
theorem timersDestroy_loop_iff (h : Accounted d) :
    (∃ d1, (List.range d.gNumTimers.toNat).foldlM Driver.destroyTimer d = some d1) ↔
      (∀ t i s, d.gTimers = some t → d.slot t i = some s → ¬ s.Active) ∧
        (0 < d.gNumTimers → d.gTimers ≠ none) := by
  constructor
  · rintro ⟨d1, hloop⟩
    refine ⟨fun t i s ht hs ha => ?_, fun hpos hnone => ?_⟩
    · have hi := h.within t i s ht hs ha
      have hmem : i ∈ List.range d.gNumTimers.toNat := by
        rw [List.mem_range]
        omega
      exact destroy_loop_idle d d1 t _ ht hloop i hmem s hs ha
    · -- the first pass would go through NULL
      obtain ⟨k, hk⟩ : ∃ k, d.gNumTimers.toNat = k+1 := ⟨d.gNumTimers.toNat-1, by omega⟩
      rw [hk, List.range_succ_eq_map, List.foldlM_cons, Driver.destroyTimer, hnone] at hloop
      cases hloop
  · rintro ⟨hidle, htable⟩
    by_cases hpos : 0 < d.gNumTimers
    · obtain ⟨t, ht⟩ := Option.ne_none_iff_exists'.mp (htable hpos)
      obtain ⟨d1, hd1, -⟩ := destroy_loop d t (List.range d.gNumTimers.toNat) ht fun i hi => by
        rw [List.mem_range] at hi
        obtain ⟨s, hs⟩ := h.inv.table t ht i (by omega)
        exact ⟨s, hs, hidle t i s ht hs⟩
      exact ⟨d1, hd1⟩
    · have hzero : d.gNumTimers.toNat = 0 := by omega
      rw [hzero]
      exact ⟨d, rfl⟩

/-- The loop of `timers_destroy` frees nothing and moves no block. -/
theorem timersDestroy_loop_same (h : Accounted d)
    (hloop : (List.range d.gNumTimers.toNat).foldlM Driver.destroyTimer d = some d') :
    SameBlocks d d' := by
  cases ht : d.gTimers with
  | none =>
    have hpos := ((timersDestroy_loop_iff d h).mp ⟨d', hloop⟩).2
    have hzero : d.gNumTimers.toNat = 0 := by
      by_contra hne
      exact hpos (by omega) ht
    rw [hzero] at hloop
    obtain rfl := Option.some.inj hloop
    exact ⟨rfl, rfl, rfl, rfl⟩
  | some t =>
    obtain ⟨d1, hd1, hsame⟩ := destroy_loop d t (List.range d.gNumTimers.toNat) ht fun i hi => by
      rw [List.mem_range] at hi
      obtain ⟨s, hs⟩ := h.inv.table t ht i (by omega)
      refine ⟨s, hs, destroy_loop_idle d d' t _ ht hloop i ?_ s hs⟩
      rw [List.mem_range]
      exact hi
    rw [hd1] at hloop
    exact Option.some.inj hloop ▸ hsame

/-- Freeing the table settles the account exactly when nothing is lost and no message held. -/
theorem table_settles_iff (h : Accounted d) (hsame : SameBlocks d d') :
    (∃ u, d'.kfree d'.tablePointer = some u ∧ ∀ id < u.nextBlock, u.freed.count id = 1) ↔
      d.lost = ∅ ∧ ∀ id, ¬ Holds d id := by
  have hpointer := currentBlock_eq d d' hsame.gTimers hsame.tableBlock
  cases hcur : d.currentBlock with
  | none =>
    -- `kfree` of NULL or of `ZERO_SIZE_PTR` does nothing
    have hnull := tablePointer_none d' (hpointer.trans hcur)
    have hreached : d.reached = ∅ ↔ ∀ id, ¬ Holds d id := by
      simp [Set.eq_empty_iff_forall_notMem, Driver.reached, hcur]
    have hsettled := (d.account h).settled_iff
    change d.lost = ∅ ∧ d.reached = ∅ ↔ ∀ id < d.nextBlock, d.freed.count id = 1 at hsettled
    rw [hnull, ← hreached, hsettled, ← hsame.nextBlock, ← hsame.freed]
    constructor
    · rintro ⟨u, hu, hall⟩
      exact Option.some.inj hu ▸ hall
    · intro hall
      exact ⟨d', rfl, hall⟩
  | some b =>
    -- the current table goes, so only the slots are left
    have hblock := tablePointer_some d' b (hpointer.trans hcur)
    have hb : b ∈ (d.account h).reached := Or.inl hcur
    have hlive := (d.account h).live b hb
    have hreached : d.reached \ {b} = ∅ ↔ ∀ id, ¬ Holds d id := by
      rw [Set.eq_empty_iff_forall_notMem]
      constructor
      · intro hnone id hheld
        refine hnone id ⟨Or.inr hheld, fun hid => ?_⟩
        rw [Set.mem_singleton_iff] at hid
        exact h.apart b (currentBlock_mem d b hcur) (hid ▸ hheld)
      · rintro hnone id ⟨htable | hheld, hne⟩
        · rw [hcur] at htable
          exact hne (Option.some.inj htable).symm
        · exact hnone id hheld
    have hkfree := kfree_table d d' b hlive.2 hsame.freed
    have hsettled := ((d.account h).release b hb).settled_iff
    rw [Account.lost_release, account_lost] at hsettled
    change d.lost = ∅ ∧ d.reached \ {b} = ∅ ↔
      ∀ id < d.nextBlock, (b :: d.freed).count id = 1 at hsettled
    rw [hblock, hkfree, ← hreached, hsettled, ← hsame.nextBlock, ← hsame.freed]
    constructor
    · rintro ⟨u, hu, hall⟩
      obtain rfl := Option.some.inj hu
      exact hall
    · intro hall
      exact ⟨_, rfl, hall⟩

/-- With nothing lost every table with slots is the one behind `g_timers`. -/
theorem idle_of_kept (h : Accounted d) (hlost : d.lost = ∅)
    (hidle : ∀ t i s, d.gTimers = some t → d.slot t i = some s → ¬ s.Active) (t i : ℕ)
    (s : MsgTimer) (hs : d.slot t i = some s) : ¬ s.Active := by
  by_cases ht : d.gTimers = some t
  · exact hidle t i s ht hs
  · obtain ⟨b, hb⟩ := h.block t i s hs
    have hmem : b ∈ d.tableBlocks := ⟨t, hb⟩
    have hin : b ∈ d.lost := by
      refine ⟨h.table b hmem, ?_⟩
      rintro (hcur | hheld)
      · obtain ⟨t', ht', hb'⟩ := Option.bind_eq_some_iff.mp hcur
        exact ht (h.tables t t' b hb hb' ▸ ht')
      · exact h.apart b hmem hheld
    rw [hlost] at hin
    exact hin.elim

theorem holds_none_of_idle (hidle : ∀ t i s, d.slot t i = some s → ¬ s.Active) (id : ℕ) :
    ¬ Holds d id := fun ⟨t, i, s, hs, hheld⟩ => hidle t i s hs hheld.1

/-- An unload is clean exactly when nothing was lost, no timer is in use, and there is a table if
there are timers. -/
theorem unload_clean_iff_kept (h : Accounted d) :
    UnloadClean d ↔ d.lost = ∅ ∧ (∀ t i s, d.slot t i = some s → ¬ s.Active) ∧
      (0 < d.gNumTimers → d.gTimers ≠ none) := by
  constructor
  · rintro ⟨u, hu, hall⟩
    obtain ⟨d1, hloop, hfree⟩ := Option.bind_eq_some_iff.mp hu
    obtain ⟨hidle, htable⟩ := (timersDestroy_loop_iff d h).mp ⟨d1, hloop⟩
    have hsame := timersDestroy_loop_same d d1 h hloop
    obtain ⟨hlost, -⟩ := (table_settles_iff d d1 h hsame).mp ⟨u, hfree, hall⟩
    exact ⟨hlost, idle_of_kept d h hlost hidle, htable⟩
  · rintro ⟨hlost, hidle, htable⟩
    obtain ⟨d1, hloop⟩ := (timersDestroy_loop_iff d h).mpr
      ⟨fun t i s _ hs => hidle t i s hs, htable⟩
    have hsame := timersDestroy_loop_same d d1 h hloop
    obtain ⟨u, hu, hall⟩ := (table_settles_iff d d1 h hsame).mpr
      ⟨hlost, holds_none_of_idle d hidle⟩
    refine ⟨u, ?_, hall⟩
    rw [Driver.timersDestroy, hloop]
    exact hu

end Unload

theorem accounted_zeroed : Accounted ⟨0, none, [], 0, [], []⟩ := by
  refine ⟨inv_zeroed, List.nodup_nil, ?_, ?_, ?_, ?_, ?_⟩
  · intro t t' b hb
    cases hb
  · intro t i s hs
    cases hs
  · intro id hid
    rw [zeroed_tableBlocks] at hid
    exact hid.elim
  · intro id hid
    rw [zeroed_tableBlocks] at hid
    exact hid.elim
  · intro t i s ht
    cases ht

/-- After the load nothing is lost yet. -/
theorem fresh_accounted (d : Driver) (h : Fresh d) : Accounted d ∧ d.lost = ∅ := by
  obtain ⟨n, alloc, r, hcreate⟩ := h
  have he := perform_effect ⟨1, by decide, by decide⟩ 0 _ _ alloc (.resize n) r hcreate
  obtain ⟨hacc, hlost⟩ := effect_lost _ 0 _ d alloc _ r accounted_zeroed he
  refine ⟨hacc, ?_⟩
  rw [hlost]
  apply Set.eq_empty_of_forall_notMem
  rintro id (hid | hid)
  · exact absurd hid.1.1 (Nat.not_lt_zero id)
  · cases hid

/-- In every run, resizes included, the blocks that nothing can free any more are exactly those
that the steps dropped: the tables of resizes and the old messages of updates. -/
theorem lost_iff_dropped (cfg : Config) (now : ℕ) (d : Driver) (hd : Fresh d) (es : List Event)
    (s : State) (h : run (step cfg) (fun _ _ => true) ⟨now, d⟩ es = some s) (id : ℕ) :
    id ∈ s.driver.lost ↔ id ∈ allDropped cfg ⟨now, d⟩ es := by
  obtain ⟨hacc, hlost⟩ := fresh_accounted d hd
  have hend := (run_lost cfg ⟨now, d⟩ s es hacc h).2
  change s.driver.lost = d.lost ∪ _ at hend
  rw [hend, hlost, Set.empty_union]
  rfl

/-- Two timers, a resize while they run, a third timer, an update of it, and all of them fire. -/
def sampleResize : List Event :=
  [sampleWrite "4 oat\n" true, sampleWrite "^COUNT=2" true, sampleWrite "8 rye\n" true,
    sampleWrite "6 rye\n" true, .tick 1500, .fire 0 0, .fire 1 0]

theorem fresh_two : Fresh (Driver.withTable ⟨0, none, [], 0, [], []⟩ 2 2) := ⟨2, true, 0, rfl⟩

set_option maxRecDepth 8192 in
theorem lost_iff_dropped_run : ∃ d s, Fresh d ∧
    run (step sampleConfig) (fun _ _ => true) ⟨0, d⟩ sampleResize = some s ∧
      s.driver.log = [ascii "oat", ascii "rye"] ∧ 0 ∈ s.driver.lost ∧ 3 ∈ s.driver.lost ∧
      1 ∉ s.driver.lost := by
  have hrun : (run (step sampleConfig) (fun _ _ => true)
      ⟨0, Driver.withTable ⟨0, none, [], 0, [], []⟩ 2 2⟩ sampleResize).any (fun s =>
        s.driver.log = [ascii "oat", ascii "rye"]) = true := by decide
  obtain ⟨s, hs, hp⟩ := (Option.any_eq_true _ _).mp hrun
  have hdropped : allDropped sampleConfig ⟨0, Driver.withTable ⟨0, none, [], 0, [], []⟩ 2 2⟩
      sampleResize = [0, 3] := by decide
  have hiff (id : ℕ) := lost_iff_dropped sampleConfig 0 _ fresh_two sampleResize s hs id
  rw [hdropped] at hiff
  exact ⟨_, s, fresh_two, hs, of_decide_eq_true hp, (hiff 0).mpr (by decide),
    (hiff 3).mpr (by decide), fun hid => absurd ((hiff 1).mp hid) (by decide)⟩

/-- An unload at the end of a run is clean exactly when no step of the run dropped a block, no
timer is in use, and there is a table if there are timers. -/
theorem unload_clean_iff_undropped (cfg : Config) (now : ℕ) (d : Driver) (hd : Fresh d)
    (es : List Event) (s : State)
    (h : run (step cfg) (fun _ _ => true) ⟨now, d⟩ es = some s) :
    UnloadClean s.driver ↔ allDropped cfg ⟨now, d⟩ es = [] ∧
      (∀ t i x, s.driver.slot t i = some x → ¬ x.Active) ∧
        (0 < s.driver.gNumTimers → s.driver.gTimers ≠ none) := by
  obtain ⟨hacc, hlost⟩ := fresh_accounted d hd
  obtain ⟨hend, hrun⟩ := run_lost cfg ⟨now, d⟩ s es hacc h
  change s.driver.lost = d.lost ∪ _ at hrun
  rw [hlost, Set.empty_union] at hrun
  have hempty : s.driver.lost = ∅ ↔ allDropped cfg ⟨now, d⟩ es = [] := by
    rw [hrun, List.eq_nil_iff_forall_not_mem]
    exact Set.eq_empty_iff_forall_notMem
  rw [unload_clean_iff_kept s.driver hend, hempty]

/-- A load whose table could not be had, a resize to nothing, one that makes a table, and a timer
that fires. -/
def sampleRescue : List Event :=
  [sampleWrite "^COUNT=0" true, sampleWrite "^COUNT=2" true, sampleWrite "4 oat\n" true,
    .tick 1000, .fire 1 0]

set_option maxRecDepth 8192 in
theorem unload_clean_iff_undropped_run : ∃ d s, Fresh d ∧
    run (step sampleConfig) (fun _ _ => true) ⟨0, d⟩ sampleRescue = some s ∧
      s.driver.log = [ascii "oat"] ∧ UnloadClean s.driver := by
  have hfresh := fresh_loaded 0 false
  have hrun : (run (step sampleConfig) (fun _ _ => true) (loaded 0 false) sampleRescue).any (fun s =>
      s.driver.log = [ascii "oat"] ∧ s.driver.gTimers ≠ none ∧
        (s.driver.tables.all fun tb => tb.slots.all fun x => !decide x.Active)) = true := by decide
  obtain ⟨s, hs, hp⟩ := (Option.any_eq_true _ _).mp hrun
  obtain ⟨hlog, htable, hidle⟩ := of_decide_eq_true hp
  have hdropped : allDropped sampleConfig (loaded 0 false) sampleRescue = [] := by decide
  refine ⟨_, s, hfresh, hs, hlog, (unload_clean_iff_undropped sampleConfig 0 _ hfresh _ s hs).mpr
    ⟨hdropped, fun t i x hx => ?_, fun _ => htable⟩⟩
  simpa using all_slots s.driver _ hidle t i x hx

end DevKota.Lab2
