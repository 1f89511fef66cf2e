import DevKota.Lab2Armed
import DevKota.Lab2Client
import DevKota.Lab2Table
import DevKota.Ledgers

/-! The blocks of the lab2 driver: who holds them while it runs, and what unloading it frees. -/
namespace DevKota.Lab2
open CString Kernel Runs Ledgers

namespace Driver

/-- `(char *)timer.function`: the address of a function is no block. -/
def functionPointer : Option Callback → Pointer
  | none => .null
  | some _ => .junk

/-- One pass of the loop in `timers_destroy`. It frees the callback, and not the message. -/
def destroyTimer (d : Driver) (i : ℕ) : Option Driver :=
  d.gTimers.bind fun t => (d.slot t i).bind fun s =>
    (d.kfree (functionPointer s.timer.function)).map fun d =>
      d.setSlot t i { s with timer := s.timer.delTimer }

/-- The block that the table at place `t` lies in. -/
def tableBlock (d : Driver) (t : ℕ) : Option ℕ := d.tables[t]?.bind (·.block)

/-- The blocks that the tables lie in. -/
def tableBlocks (d : Driver) : Set ℕ := {id | ∃ t, d.tableBlock t = some id}

/-- The block behind `g_timers`. -/
def currentBlock (d : Driver) : Option ℕ := d.gTimers.bind d.tableBlock

/-- `g_timers`, as a pointer to free. -/
def tablePointer (d : Driver) : Pointer :=
  match d.currentBlock with
  -- `kfree` passes over `ZERO_SIZE_PTR` as it does over NULL
  | none => .null
  | some b => .block b []

/-- `timers_destroy`. -/
def timersDestroy (d : Driver) : Option Driver :=
  ((List.range d.gNumTimers.toNat).foldlM destroyTimer d).bind fun d => d.kfree d.tablePointer

end Driver

/-- The block of an active slot's message. -/
def MsgTimer.held (s : MsgTimer) : Set ℕ := {id | s.Active ∧ ∃ text, s.message = .block id text}

/-- An active slot has its message in the block. -/
def Holds (d : Driver) (id : ℕ) : Prop := ∃ t i s, d.slot t i = some s ∧ id ∈ s.held

/-- A block that was allocated for a message and not freed. -/
def LiveMessage (d : Driver) (id : ℕ) : Prop :=
  id < d.nextBlock ∧ id ∉ d.freed ∧ id ∉ d.tableBlocks

/-- The live message blocks are the messages of the active slots, none was freed twice, and no
callback of an armed timer is about to. -/
structure Balanced (d : Driver) : Prop where
  live (id : ℕ) : LiveMessage d id ↔ Holds d id
  once : d.freed.Nodup
  fires (t i : ℕ) (s : MsgTimer) : d.slot t i = some s → s.timer.pending = true →
    d.expire t i ≠ none

/-- Unloading frees nothing but blocks, and every block that was ever allocated exactly once. -/
def UnloadClean (d : Driver) : Prop :=
  ∃ d', d.timersDestroy = some d' ∧ ∀ id < d'.nextBlock, d'.freed.count id = 1

/-- What the load makes of the zeroed globals, for a table of any size. -/
def Fresh (d : Driver) : Prop :=
  ∃ n alloc r, Driver.createTimers ⟨0, none, [], 0, [], []⟩ n alloc = some (d, r)

theorem fresh_loaded (load : ℕ) (alloc : Bool) : Fresh (loaded load alloc).driver := by
  cases alloc with
  | false => exact ⟨1, false, -1, rfl⟩
  | true => exact ⟨1, true, 0, rfl⟩

/-- No resize is asked for. -/
def noResize (_ : State) : Event → Bool
  | .write buf _ =>
    match requestOf buf with
    | .resize _ => false
    | _ => true
  | _ => true

/-- No timer of the table is set again. -/
def NoUpdate (s : State) : Event → Prop
  | .write buf _ => ∀ seconds m, requestOf buf = .set seconds m → ¬ HasMessage s.driver m
  | _ => True

/-- The books of a driver with a single table: its block and those of the messages are apart,
and the slots in use are those that the unload goes over. -/
structure Books (d : Driver) : Prop where
  inv : Inv d
  nodup : d.freed.Nodup
  single (t b : ℕ) : d.tableBlock t = some b → d.gTimers = some t
  table (id : ℕ) : id ∈ d.tableBlocks → id < d.nextBlock ∧ id ∉ d.freed
  apart (id : ℕ) : id ∈ d.tableBlocks → ¬ Holds d id
  within (t i : ℕ) (s : MsgTimer) : d.slot t i = some s → s.Active →
    d.gTimers = some t ∧ (i:ℤ) < d.gNumTimers

/-- The blocks that can still be reached. -/
def Driver.owned (d : Driver) : Set ℕ := {id | id ∈ d.tableBlocks ∨ Holds d id}

/-- What was allocated and freed so far. -/
def Driver.ledger (d : Driver) (h : Books d) : Ledger := ⟨d.nextBlock, d.freed, h.nodup, h.inv.freed⟩

section Books
variable (d d' : Driver)

theorem tableBlock_setSlot (t i : ℕ) (s : MsgTimer) :
    (d.setSlot t i s).tableBlock = d.tableBlock := by
  funext k
  unfold Driver.tableBlock Driver.setSlot
  rw [List.getElem?_modify]
  cases d.tables[k]? with
  | none => rfl
  | some tb => by_cases hk : t = k <;> simp [hk]

theorem expire_tableBlock (t i : ℕ) (h : d.expire t i = some d') :
    d'.tableBlock = d.tableBlock := by
  obtain ⟨s, -, h⟩ := Option.bind_eq_some_iff.mp h
  split at h
  · obtain ⟨s', -, h⟩ := Option.bind_eq_some_iff.mp h
    obtain ⟨text, -, h⟩ := Option.bind_eq_some_iff.mp h
    obtain ⟨htables, -⟩ := kfree_cases _ _ _ h
    have hblock : d'.tableBlock = ((d.setSlot t i { s with timer := s.timer.delTimer }).setSlot t i
        { s' with timer.function := none }).tableBlock := by
      funext k
      unfold Driver.tableBlock
      rw [htables]
      rfl
    rw [hblock, tableBlock_setSlot, tableBlock_setSlot]
  · cases h

theorem tableBlocks_eq (h : d'.tableBlock = d.tableBlock) : d'.tableBlocks = d.tableBlocks := by
  unfold Driver.tableBlocks
  rw [h]

theorem currentBlock_eq (hcur : d'.gTimers = d.gTimers) (h : d'.tableBlock = d.tableBlock) :
    d'.currentBlock = d.currentBlock := by
  rw [Driver.currentBlock, Driver.currentBlock, hcur, h]

theorem currentBlock_mem (id : ℕ) (h : d.currentBlock = some id) : id ∈ d.tableBlocks := by
  obtain ⟨t, -, hb⟩ := Option.bind_eq_some_iff.mp h
  exact ⟨t, hb⟩

/-- A new table comes with a block of its own, or with none. -/
theorem withTable_tableBlock (n : ℤ) (k t : ℕ) : (d.withTable n k).tableBlock t =
    if t = d.tables.length then (if kmallocSize n = 0 then none else some d.nextBlock)
    else d.tableBlock t := by
  unfold Driver.tableBlock Driver.withTable
  rcases lt_trichotomy t d.tables.length with ht | ht | ht
  · rw [List.getElem?_append_left ht, if_neg (by omega)]
  · rw [ht, List.getElem?_append_right (le_refl _), Nat.sub_self, if_pos rfl]
    rfl
  · rw [List.getElem?_eq_none (by simp; omega), List.getElem?_eq_none (by omega),
      if_neg (by omega)]

theorem held_idle (s : MsgTimer) (h : ¬ s.Active) : s.held = ∅ := by
  apply Set.eq_empty_of_forall_notMem
  intro id hid
  exact h hid.1

theorem held_null (s : MsgTimer) (h : s.message = .null) : s.held = ∅ := by
  apply Set.eq_empty_of_forall_notMem
  rintro id ⟨-, text, hm⟩
  rw [h] at hm
  cases hm

theorem held_block (s : MsgTimer) (id : ℕ) (text : List Byte) (ha : s.Active)
    (h : s.message = .block id text) : s.held = {id} := by
  ext id'
  rw [Set.mem_singleton_iff]
  constructor
  · rintro ⟨-, text', hm⟩
    rw [h] at hm
    exact (Pointer.block.inj hm).1.symm
  · rintro rfl
    exact ⟨ha, text, h⟩

theorem holds_live (h : Inv d) (id : ℕ) (hid : Holds d id) : id < d.nextBlock ∧ id ∉ d.freed := by
  obtain ⟨t, i, s, hs, ha, text, hm⟩ := hid
  exact (live_block d h t i s id text hs ha hm).symm

/-- In the books, balance means that every block that is not freed can still be reached. -/
theorem balanced_iff (h : Books d) : Balanced d ↔ (d.ledger h).OwnedBy d.owned := by
  constructor
  · intro hb id
    constructor
    · rintro ⟨hlt, hfreed⟩
      by_cases htable : id ∈ d.tableBlocks
      · exact Or.inl htable
      · exact Or.inr ((hb.live id).mp ⟨hlt, hfreed, htable⟩)
    · rintro (htable | hheld)
      · exact h.table id htable
      · exact holds_live d h.inv id hheld
  · intro ho
    refine ⟨fun id => ⟨?_, ?_⟩, h.nodup, ?_⟩
    · rintro ⟨hlt, hfreed, htable⟩
      exact ((ho id).mp ⟨hlt, hfreed⟩).resolve_left htable
    · intro hheld
      obtain ⟨hlt, hfreed⟩ := holds_live d h.inv id hheld
      exact ⟨hlt, hfreed, fun htable => h.apart id htable hheld⟩
    · intro t i s hs hp
      obtain ⟨d', text, he, -⟩ := expire_defined d h.inv t i s hs hp
      rw [he]
      simp

theorem withTable_tableBlocks (n : ℤ) (k id : ℕ) : id ∈ (d.withTable n k).tableBlocks ↔
    id ∈ d.tableBlocks ∨ kmallocSize n ≠ 0 ∧ id = d.nextBlock := by
  constructor
  · rintro ⟨t, ht⟩
    rw [withTable_tableBlock] at ht
    split_ifs at ht with hlen hzero
    · exact Or.inr ⟨hzero, (Option.some.inj ht).symm⟩
    · exact Or.inl ⟨t, ht⟩
  · rintro (⟨t, ht⟩ | ⟨hsize, rfl⟩)
    · refine ⟨t, ?_⟩
      rw [withTable_tableBlock, if_neg, ht]
      rintro rfl
      simp [Driver.tableBlock] at ht
    · exact ⟨d.tables.length, by rw [withTable_tableBlock, if_pos rfl, if_neg hsize]⟩

section Store
variable (t i : ℕ) (s0 s : MsgTimer) (hs : Stores d d' t i s0 s)
include hs

theorem stored_held (id : ℕ) (hid : id ∈ s.held) : id = d.nextBlock := by
  obtain ⟨ha, text, hm⟩ := hid
  rcases hs.message ha with hnull | ⟨text', hb, -⟩
  · rw [hm] at hnull
    cases hnull
  · rw [hm] at hb
    exact (Pointer.block.inj hb).1

theorem old_held (id : ℕ) (hid : id ∈ s0.held) : Holds d id := ⟨t, i, s0, hs.old, hid⟩

variable (h : Books d)
include h

/-- A store hands the slot's old block out of reach and brings its new one in. -/
theorem owned_store (htables : d'.tableBlock = d.tableBlock) :
    d'.owned = (d.owned ∪ s.held) \ s0.held := by
  have hblocks := tableBlocks_eq d d' htables
  have hnew (id : ℕ) (hid : id ∈ s.held) : id ∉ s0.held := by
    intro hold
    have hlt := (holds_live d h.inv id (old_held d d' t i s0 s hs id hold)).1
    rw [stored_held d d' t i s0 s hs id hid] at hlt
    exact lt_irrefl _ hlt
  ext id
  constructor
  · rintro (htable | ⟨t', i', s', hs', hheld⟩)
    · rw [hblocks] at htable
      exact ⟨Or.inl (Or.inl htable),
        fun hold => h.apart id htable (old_held d d' t i s0 s hs id hold)⟩
    · rcases stored_cases d d' t i s hs.slot t' i' s' hs' with ⟨-, rfl⟩ | ⟨hti, hkept⟩
      · exact ⟨Or.inr hheld, hnew id hheld⟩
      · refine ⟨Or.inl (Or.inr ⟨t', i', s', hkept, hheld⟩), ?_⟩
        -- two slots in use never share a block
        rintro ⟨ha0, text0, hm0⟩
        obtain ⟨ha', text', hm'⟩ := hheld
        exact hti (h.inv.distinct t i s0 t' i' s' id text0 text' hs.old ha0 hm0 hkept ha' hm')
  · rintro ⟨(htable | ⟨t', i', s', hs', hheld⟩) | hheld, hnot⟩
    · exact Or.inl (by rw [hblocks]; exact htable)
    · refine Or.inr ⟨t', i', s', ?_, hheld⟩
      have hti : ¬ (t' = t ∧ i' = i) := by
        rintro ⟨rfl, rfl⟩
        rw [hs.old] at hs'
        obtain rfl := Option.some.inj hs'
        exact hnot hheld
      rw [hs.slot, if_neg hti, hs']
    · exact Or.inr ⟨t, i, s, by rw [hs.slot, if_pos ⟨rfl, rfl⟩], hheld⟩

theorem books_store (htables : d'.tableBlock = d.tableBlock) (hnodup : d'.freed.Nodup)
    (hwithin : d.gTimers = some t ∧ (i:ℤ) < d.gNumTimers) : Books d' := by
  have hblocks := tableBlocks_eq d d' htables
  refine ⟨inv_store d d' h.inv t i s0 s hs, hnodup, ?_, ?_, ?_, ?_⟩
  · rw [hs.gTimers, htables]
    exact h.single
  · intro id hid
    rw [hblocks] at hid
    obtain ⟨hlt, hfreed⟩ := h.table id hid
    refine ⟨lt_of_lt_of_le hlt hs.nextBlock, fun hid' => ?_⟩
    rcases hs.freed id hid' with hid' | hheld
    · exact hfreed hid'
    · exact h.apart id hid (old_held d d' t i s0 s hs id hheld)
  · intro id hid hheld
    rw [hblocks] at hid
    obtain ⟨t', i', s', hs', hheld⟩ := hheld
    rcases stored_cases d d' t i s hs.slot t' i' s' hs' with ⟨-, rfl⟩ | ⟨-, hkept⟩
    · have hlt := (h.table id hid).1
      rw [stored_held d d' t i s0 s' hs id hheld] at hlt
      exact lt_irrefl _ hlt
    · exact h.apart id hid ⟨t', i', s', hkept, hheld⟩
  · intro t' i' s' hs' ha
    rw [hs.gTimers, hs.gNumTimers]
    rcases stored_cases d d' t i s hs.slot t' i' s' hs' with ⟨⟨rfl, rfl⟩, -⟩ | ⟨-, hkept⟩
    · exact hwithin
    · exact h.within t' i' s' hkept ha

end Store

end Books

section Steps
variable (cfg : Config) (now : ℕ) (d d' : Driver)

/-- The slot that a message goes to has no block to lose unless the message is there already. -/
theorem held_empty_iff (t i : ℕ) (s : MsgTimer) (m : List Byte) (hc : Chosen d t i s m) :
    s.held = ∅ ↔ ¬ HasMessage d m := by
  constructor
  · intro hempty hm
    have ha := chosen_active d m t i s hc hm
    rcases hc.choice with ⟨-, hread⟩ | ⟨hidle, -⟩
    · cases hp : s.message with
      | junk =>
        rw [hp] at hread
        cases hread
      | null =>
        rw [hp] at hread
        cases hread
      | block id text =>
        have hid : id ∈ s.held := ⟨ha, text, hp⟩
        rw [hempty] at hid
        exact hid
    · exact hidle ha
  · intro hm
    apply Set.eq_empty_of_forall_notMem
    intro id hid
    exact hm (chosen_hasMessage d m t i s hc hid.1)

theorem held_subset (t i : ℕ) (s : MsgTimer) (hs : d.slot t i = some s) : s.held ⊆ d.owned :=
  fun _ hid => Or.inr ⟨t, i, s, hs, hid⟩

theorem search_missed (m : List Byte) (hf : d.findAvailableTimer m = some (-ENOMEM)) :
    ¬ HasMessage d m := by
  rintro ⟨t, i, s, ht, hi, hs, ha, hm⟩
  rcases findAvailableTimer_cases d m _ hf with ⟨t', i', s', hneg, -⟩ | ⟨-, hnone⟩
  · rw [ENOMEM] at hneg
    omega
  · exact hnone t i s ht hi hs ha hm

/-- A store whose new block is on the ledger keeps the balance when the slot had none to lose. -/
theorem store_balanced_iff (t i : ℕ) (s0 s : MsgTimer) (hs : Stores d d' t i s0 s) (h : Books d)
    (h' : Books d') (htables : d'.tableBlock = d.tableBlock)
    (ho : (d'.ledger h').OwnedBy (d.owned ∪ s.held)) : Balanced d' ↔ s0.held = ∅ := by
  rw [balanced_iff d' h', owned_store d d' t i s0 s hs h htables]
  exact Ledger.ownedBy_drop_iff ho
    (subset_trans (held_subset d t i s0 hs.old) Set.subset_union_left)

/-- Carrying out a request keeps the books, and the balance exactly when it updates nothing. -/
theorem effect_books (alloc : Bool) (req : Request) (r : ℤ) (h : Books d)
    (hr : ∀ n, req ≠ .resize n) (he : Effect cfg now d alloc req d' r) :
    Books d' ∧ (Balanced d →
      (Balanced d' ↔ ∀ seconds m, req = .set seconds m → ¬ HasMessage d m)) := by
  have hset (seconds : ℤ) (m : List Byte) :
      (∀ seconds' m', Request.set seconds m = .set seconds' m' → ¬ HasMessage d m') ↔
        ¬ HasMessage d m :=
    ⟨fun hall => hall seconds m rfl, fun hm _ _ hreq => (Request.set.inj hreq).2 ▸ hm⟩
  cases he with
  | malformed e => exact ⟨h, fun hb => ⟨fun _ _ _ hreq => (by cases hreq), fun _ => hb⟩⟩
  | noTable n ha hsize => exact absurd rfl (hr n)
  | newTable n k ha hk hsize => exact absurd rfl (hr n)
  | full seconds m hf =>
    exact ⟨h, fun hb => by rw [hset]; exact ⟨fun _ => search_missed d m hf, fun _ => hb⟩⟩
  | unfilled seconds m t i s ha hf hc =>
    have hs := stores_unfilled d t i s m hc
    have htables := tableBlock_setSlot d t i s.unfilled
    have hb' := books_store d _ t i s _ hs h htables h.nodup ⟨hc.table, hc.index⟩
    refine ⟨hb', fun hb => ?_⟩
    have hledger : Driver.ledger _ hb' = d.ledger h := Ledger.ext rfl rfl
    rw [hset, ← held_empty_iff d t i s m hc]
    apply store_balanced_iff d _ t i s _ hs h hb' htables
    -- nothing was allocated, and nothing is brought in
    rw [hledger, held_null s.unfilled rfl, Set.union_empty]
    exact (balanced_iff d h).mp hb
  | filled seconds m t i s r ha hf hc hr =>
    have hs := stores_filled cfg now d t i s m hc seconds
    have htables := tableBlock_setSlot d t i (s.filled cfg now d.nextBlock seconds m)
    have hb' := books_store d _ t i s _ hs h htables h.nodup ⟨hc.table, hc.index⟩
    refine ⟨hb', fun hb => ?_⟩
    have hledger : Driver.ledger _ hb' = (d.ledger h).alloc := Ledger.ext rfl rfl
    have hnew : (s.filled cfg now d.nextBlock seconds m).held = {d.nextBlock} :=
      held_block _ _ m rfl rfl
    rw [hset, ← held_empty_iff d t i s m hc]
    apply store_balanced_iff d _ t i s _ hs h hb' htables
    -- the new block is the slot's, whatever became of the old one
    rw [hledger, hnew]
    exact Ledger.ownedBy_alloc ((balanced_iff d h).mp hb)

/-- A firing keeps the balance: the slot gives up its block as it is freed. -/
theorem expire_books (t i : ℕ) (h : Books d) (he : d.expire t i = some d') :
    Books d' ∧ (Balanced d → Balanced d') := by
  obtain ⟨s, ha, hs⟩ := expire_stores d d' t i he
  obtain ⟨s', hs', -, -, -, -, hnext, hfreed⟩ := expire_cases d d' t i he
  rw [hs.old] at hs'
  obtain rfl := Option.some.inj hs'
  have htables := expire_tableBlock d d' t i he
  have howned := owned_store d d' t i s s.fired hs h htables
  rw [held_idle _ (fired_idle s), Set.union_empty] at howned
  have hbooks (hnodup : d'.freed.Nodup) : Books d' :=
    books_store d d' t i s _ hs h htables hnodup (h.within t i s hs.old ha)
  -- a slot whose message could not be allocated has nothing to free
  rcases hfreed with ⟨hm, hfreed⟩ | ⟨id, text, hm, hid, hfreed⟩
  · have hb' := hbooks (by rw [hfreed]; exact h.nodup)
    refine ⟨hb', fun hb => ?_⟩
    have hledger : d'.ledger hb' = d.ledger h := Ledger.ext hnext hfreed
    rw [balanced_iff _ hb', hledger, howned, held_null s hm, Set.sdiff_empty]
    exact (balanced_iff d h).mp hb
  · have hb' := hbooks (by rw [hfreed]; exact List.nodup_cons.mpr ⟨hid, h.nodup⟩)
    refine ⟨hb', fun hb => ?_⟩
    have hlive : (d.ledger h).Live id := (live_block d h.inv t i s id text hs.old ha hm).symm
    have hledger : d'.ledger hb' = (d.ledger h).free id hlive := Ledger.ext hnext hfreed
    rw [balanced_iff _ hb', hledger, howned, held_block s id text ha hm]
    exact Ledger.ownedBy_free ((balanced_iff d h).mp hb) id hlive

/-- A step without a resize keeps the books, and the balance exactly when it updates nothing. -/
theorem step_books (s s' : State) (e : Event) (h : Books s.driver) (hr : noResize s e = true)
    (hs : step cfg s e = some s') :
    Books s'.driver ∧ (Balanced s.driver → (Balanced s'.driver ↔ NoUpdate s e)) := by
  rcases step_cases cfg s s' e hs with
    ⟨ticks, rfl, heq⟩ | ⟨buf, alloc, r, rfl, he⟩ | ⟨t, i, x, rfl, -, -, he⟩
  · rw [heq]
    exact ⟨h, fun hb => ⟨fun _ => trivial, fun _ => hb⟩⟩
  · refine effect_books cfg s.now s.driver s'.driver alloc _ r h ?_ he
    intro n hreq
    simp [noResize, hreq] at hr
  · obtain ⟨hb', hkeep⟩ := expire_books s.driver s'.driver t i h he
    exact ⟨hb', fun hb => ⟨fun _ => trivial, fun _ => hkeep hb⟩⟩

end Steps

section Unload
variable (d d' : Driver)

theorem destroyTimer_eq (t i : ℕ) (s : MsgTimer) (ht : d.gTimers = some t)
    (hs : d.slot t i = some s) :
    d.destroyTimer i =
      if s.Active then none else some (d.setSlot t i { s with timer := s.timer.delTimer }) := by
  rw [Driver.destroyTimer, ht, Option.bind_some, hs, Option.bind_some]
  split_ifs with ha
  · have hf : s.timer.function = some Callback.timerCb := ha
    rw [hf]
    rfl
  · have hf : s.timer.function = none := by
      rw [← isSome_function] at ha
      simpa using ha
    rw [hf]
    rfl

/-- Detaching a timer leaves every slot as active as it was. -/
theorem detach_active (t i : ℕ) (s : MsgTimer) (hs : d.slot t i = some s) (j : ℕ) (x : MsgTimer)
    (hx : d.slot t j = some x) :
    ∃ y, (d.setSlot t i { s with timer := s.timer.delTimer }).slot t j = some y ∧
      (y.Active ↔ x.Active) := by
  rw [slot_setSlot]
  split_ifs with hij
  · obtain ⟨-, rfl⟩ := hij
    rw [hs] at hx ⊢
    obtain rfl := Option.some.inj hx
    exact ⟨_, rfl, Iff.rfl⟩
  · exact ⟨x, hx, Iff.rfl⟩

/-- The globals, the tables and the books are as they were. -/
structure SameBlocks (d d' : Driver) : Prop where
  gTimers : d'.gTimers = d.gTimers
  tableBlock : d'.tableBlock = d.tableBlock
  nextBlock : d'.nextBlock = d.nextBlock
  freed : d'.freed = d.freed

/-- Over idle slots the loop of `timers_destroy` frees nothing. -/
theorem destroy_loop (t : ℕ) (is : List ℕ) (ht : d.gTimers = some t)
    (hidle : ∀ i ∈ is, ∃ s, d.slot t i = some s ∧ ¬ s.Active) :
    ∃ d', is.foldlM Driver.destroyTimer d = some d' ∧ SameBlocks d d' := by
  induction is generalizing d with
  | nil => exact ⟨d, rfl, rfl, rfl, rfl, rfl⟩
  | cons i is ih =>
    obtain ⟨s, hs, ha⟩ := hidle i (by simp)
    have hstep := destroyTimer_eq d t i s ht hs
    rw [if_neg ha] at hstep
    obtain ⟨d', hd', hsame⟩ := ih (d.setSlot t i { s with timer := s.timer.delTimer }) ht (by
      intro j hj
      obtain ⟨x, hx, hx'⟩ := hidle j (List.mem_cons_of_mem _ hj)
      obtain ⟨y, hy, hact⟩ := detach_active d t i s hs j x hx
      exact ⟨y, hy, fun h => hx' (hact.mp h)⟩)
    refine ⟨d', ?_, hsame.gTimers, ?_, hsame.nextBlock, hsame.freed⟩
    · rw [List.foldlM_cons, hstep]
      exact hd'
    · rw [hsame.tableBlock, tableBlock_setSlot]

/-- An active slot stops it: the callback is no block. -/
theorem destroy_loop_idle (t : ℕ) (is : List ℕ) (ht : d.gTimers = some t)
    (h : is.foldlM Driver.destroyTimer d = some d') (i : ℕ) (hi : i ∈ is) (s : MsgTimer)
    (hs : d.slot t i = some s) : ¬ s.Active := by
  induction is generalizing d s with
  | nil => cases hi
  | cons j is ih =>
    rw [List.foldlM_cons] at h
    obtain ⟨d1, hd1, h⟩ := Option.bind_eq_some_iff.mp h
    obtain ⟨x, hx⟩ : ∃ x, d.slot t j = some x := by
      rw [Driver.destroyTimer, ht, Option.bind_some] at hd1
      obtain ⟨x, hx, -⟩ := Option.bind_eq_some_iff.mp hd1
      exact ⟨x, hx⟩
    rw [destroyTimer_eq d t j x ht hx] at hd1
    split_ifs at hd1 with hidle
    obtain rfl := Option.some.inj hd1
    rcases List.mem_cons.mp hi with rfl | hi
    · rw [hx] at hs
      exact Option.some.inj hs ▸ hidle
    · obtain ⟨y, hy, hact⟩ := detach_active d t j x hx i s hs
      exact fun ha => ih (d.setSlot t j { x with timer := x.timer.delTimer }) ht h hi y hy
        (hact.mpr ha)

theorem tablePointer_none (h : d.currentBlock = none) : d.tablePointer = .null := by
  rw [Driver.tablePointer, h]

theorem tablePointer_some (b : ℕ) (h : d.currentBlock = some b) :
    d.tablePointer = .block b [] := by
  rw [Driver.tablePointer, h]

theorem kfree_table (b : ℕ) (hb : b ∉ d.freed) (hfreed : d'.freed = d.freed) :
    d'.kfree (.block b []) = some { d' with freed := b :: d'.freed } := by
  rw [Driver.kfree, hfreed, if_neg hb]

/-- In the books the only block of a table is the one behind `g_timers`. -/
theorem single_block (h : Books d) (id : ℕ) : id ∈ d.tableBlocks ↔ d.currentBlock = some id := by
  constructor
  · rintro ⟨t, ht⟩
    rw [Driver.currentBlock, h.single t id ht, Option.bind_some, ht]
  · exact currentBlock_mem d id

/-- Freeing the table settles the books when nothing else is owned. -/
theorem table_settles (h : Books d) (ho : (d.ledger h).OwnedBy d.tableBlocks)
    (hsame : SameBlocks d d') :
    ∃ u, d'.kfree d'.tablePointer = some u ∧ ∀ id < u.nextBlock, u.freed.count id = 1 := by
  have hcur := currentBlock_eq d d' hsame.gTimers hsame.tableBlock
  cases hb : d.currentBlock with
  | none =>
    have hempty : d.tableBlocks = ∅ := by
      ext id
      rw [single_block d h, hb]
      simp
    rw [hempty] at ho
    rw [tablePointer_none d' (hcur.trans hb)]
    refine ⟨d', rfl, fun id hid => ?_⟩
    rw [hsame.nextBlock] at hid
    rw [hsame.freed]
    exact Ledger.settled ho id hid
  | some b =>
    have hone : d.tableBlocks = {b} := by
      ext id
      rw [single_block d h, hb, Option.some.injEq, Set.mem_singleton_iff]
      exact eq_comm
    rw [hone] at ho
    have hlive : (d.ledger h).Live b := (ho b).mpr rfl
    have hsettled := Ledger.ownedBy_free ho b hlive
    rw [sdiff_self, Set.bot_eq_empty] at hsettled
    rw [tablePointer_some d' b (hcur.trans hb), kfree_table d d' b hlive.2 hsame.freed]
    refine ⟨_, rfl, fun id hid => ?_⟩
    rw [hsame.freed]
    exact Ledger.settled hsettled id (lt_of_lt_of_eq hid hsame.nextBlock)

/-- With balanced books the unload is clean exactly when no timer is in use, and there is a table
if there are timers. -/
theorem unload_clean_iff (h : Books d) (hb : Balanced d) :
    UnloadClean d ↔ (∀ t i s, d.slot t i = some s → ¬ s.Active) ∧
      (0 < d.gNumTimers → d.gTimers ≠ none) := by
  constructor
  · rintro ⟨d', hd', -⟩
    obtain ⟨d1, hloop, -⟩ := Option.bind_eq_some_iff.mp hd'
    refine ⟨fun t i s hs ha => ?_, fun hpos hnone => ?_⟩
    · obtain ⟨ht, hi⟩ := h.within t i s hs ha
      have hmem : i ∈ List.range d.gNumTimers.toNat := by
        rw [List.mem_range]
        omega
      exact destroy_loop_idle d d1 t _ ht hloop i hmem s hs ha
    · -- the first pass would go through NULL
      obtain ⟨k, hk⟩ : ∃ k, d.gNumTimers.toNat = k+1 := ⟨d.gNumTimers.toNat-1, by omega⟩
      rw [hk, List.range_succ_eq_map, List.foldlM_cons, Driver.destroyTimer, hnone] at hloop
      cases hloop
  · rintro ⟨hidle, htable⟩
    obtain ⟨d1, hloop, hsame⟩ : ∃ d1, (List.range d.gNumTimers.toNat).foldlM Driver.destroyTimer d =
        some d1 ∧ SameBlocks d d1 := by
      by_cases hpos : 0 < d.gNumTimers
      · obtain ⟨t, ht⟩ := Option.ne_none_iff_exists'.mp (htable hpos)
        refine destroy_loop d t _ ht fun i hi => ?_
        rw [List.mem_range] at hi
        obtain ⟨s, hs⟩ := h.inv.table t ht i (by omega)
        exact ⟨s, hs, hidle t i s hs⟩
      · have hzero : d.gNumTimers.toNat = 0 := by omega
        rw [hzero]
        exact ⟨d, rfl, rfl, rfl, rfl, rfl⟩
    have howned : d.owned = d.tableBlocks := by
      ext id
      refine ⟨fun hid => ?_, Or.inl⟩
      rcases hid with htab | ⟨t, i, s, hs, hheld⟩
      · exact htab
      · exact absurd hheld.1 (hidle t i s hs)
    have ho := (balanced_iff d h).mp hb
    rw [howned] at ho
    unfold UnloadClean Driver.timersDestroy
    rw [hloop, Option.bind_some]
    exact table_settles d d1 h ho hsame

end Unload

section Fresh
variable (cfg : Config) (d : Driver)

/-- An idle driver whose only block is that of its table has its books in order. -/
theorem books_idle (hinv : Inv d) (hfreed : d.freed = [])
    (hidle : ∀ t i s, d.slot t i = some s → ¬ s.Active)
    (hsingle : ∀ t b, d.tableBlock t = some b → d.gTimers = some t)
    (htable : ∀ id, id ∈ d.tableBlocks ↔ id < d.nextBlock) : Books d ∧ Balanced d := by
  have hholds (id : ℕ) : ¬ Holds d id := fun ⟨t, i, s, hs, hheld⟩ => hidle t i s hs hheld.1
  have hnot (id : ℕ) : id ∉ d.freed := by
    rw [hfreed]
    exact List.not_mem_nil
  have hbooks : Books d := by
    refine ⟨hinv, ?_, hsingle, ?_, ?_, ?_⟩
    · rw [hfreed]
      exact List.nodup_nil
    · intro id hid
      exact ⟨(htable id).mp hid, hnot id⟩
    · intro id _
      exact hholds id
    · intro t i s hs ha
      exact absurd ha (hidle t i s hs)
  refine ⟨hbooks, (balanced_iff d hbooks).mpr fun id => ⟨?_, ?_⟩⟩
  · rintro ⟨hlt, -⟩
    exact Or.inl ((htable id).mpr hlt)
  · rintro (hid | hheld)
    · exact ⟨(htable id).mp hid, hnot id⟩
    · exact absurd hheld (hholds id)

/-- Before the load there is no table. -/
theorem zeroed_tableBlocks : Driver.tableBlocks ⟨0, none, [], 0, [], []⟩ = ∅ := by
  apply Set.eq_empty_of_forall_notMem
  rintro id ⟨t, ht⟩
  cases ht

theorem fresh_books (h : Fresh d) : Books d ∧ Balanced d := by
  obtain ⟨n, alloc, r, hcreate⟩ := h
  have he := perform_effect ⟨1, by decide, by decide⟩ 0 _ _ alloc (.resize n) r hcreate
  have hinv := effect_inv _ 0 _ _ alloc _ r inv_zeroed he
  cases he with
  | noTable n ha hsize =>
    refine books_idle _ hinv rfl (fun t i s hs => by cases hs) (fun t b hb => by cases hb) ?_
    intro id
    change id ∈ Driver.tableBlocks ⟨0, none, [], 0, [], []⟩ ↔ id < 0
    simp [zeroed_tableBlocks]
  | newTable n k ha hk hsize =>
    refine books_idle _ hinv rfl (fun t i s hs => ?_) (fun t b hb => ?_) (fun id => ?_)
    · rcases withTable_slot _ n k t i s hs with ⟨-, -, rfl⟩ | ⟨-, hold⟩
      · exact freshSlot_idle.1
      · cases hold
    · rw [withTable_tableBlock] at hb
      split_ifs at hb with ht
      · rw [ht]
        rfl
      · cases hb
    -- the table has block 0, or none was handed out
    · rw [withTable_tableBlocks, zeroed_tableBlocks]
      by_cases hzero : kmallocSize n = 0 <;> simp [hzero, Driver.withTable]

end Fresh

/-- In a run without a resize the blocks are balanced in every state and the unload at its end is
clean exactly when no timer of the table is set again, none is in use at the end, and the load got
a table for its timers. -/
theorem blocks_balance_iff (cfg : Config) (now : ℕ) (d : Driver) (hd : Fresh d) (es : List Event)
    (s : State) (h : run (step cfg) noResize ⟨now, d⟩ es = some s) :
    (Always (step cfg) (fun s => Balanced s.driver) ⟨now, d⟩ es ∧ UnloadClean s.driver) ↔
      Meets (step cfg) NoUpdate ⟨now, d⟩ es ∧
        (∀ t i x, s.driver.slot t i = some x → ¬ x.Active) ∧
          (0 < s.driver.gNumTimers → s.driver.gTimers ≠ none) := by
  obtain ⟨hbooks, hbalanced⟩ := fresh_books d hd
  have hkeep (s : State) (e : Event) (t : State) (hb : Books s.driver) (hc : noResize s e = true)
      (hs : step cfg s e = some t) : Books t.driver := (step_books cfg s t e hb hc hs).1
  have hend : Books s.driver := run_invariant (I := fun s => Books s.driver) hkeep h hbooks
  have hiff : Always (step cfg) (fun s => Balanced s.driver) ⟨now, d⟩ es ↔
      Meets (step cfg) NoUpdate ⟨now, d⟩ es :=
    always_iff_meets (I := fun s => Books s.driver) hkeep
      (fun s e t hb hp hc hs => (step_books cfg s t e hb hc hs).2 hp) h hbooks hbalanced
  have hlast (halways : Always (step cfg) (fun s => Balanced s.driver) ⟨now, d⟩ es) :
      Balanced s.driver := always_last (P := fun s => Balanced s.driver) halways h
  constructor
  · rintro ⟨halways, hclean⟩
    exact ⟨hiff.mp halways, (unload_clean_iff s.driver hend (hlast halways)).mp hclean⟩
  · rintro ⟨hmeets, hidle⟩
    have halways := hiff.mpr hmeets
    exact ⟨halways, (unload_clean_iff s.driver hend (hlast halways)).mpr hidle⟩

section Check

def noUpdateCheck (s : State) : Event → Bool
  | .write buf _ =>
    match requestOf buf with
    | .set _ m => s.driver.tables.all fun tb => tb.slots.all fun x =>
        !decide (x.Active ∧ s.driver.deref x.message = some m)
    | _ => true
  | _ => true

theorem noUpdate_of_check (s : State) (e : Event) (h : noUpdateCheck s e = true) :
    NoUpdate s e := by
  cases e with
  | write buf alloc =>
    intro seconds m hreq
    simp only [noUpdateCheck, hreq] at h
    rintro ⟨t, i, x, -, -, hx, hact, hm⟩
    have hall := all_slots s.driver _ h t i x hx
    simp [hact, hm] at hall
  | _ => trivial

end Check

/-- Two timers are set, one of them is set anew after it fired, and all of them fire. -/
def sampleTimers : List Event :=
  [sampleWrite "5 billy\n" true, sampleWrite "300 dakota\n" true, .tick 1250, .fire 0 0,
    sampleWrite "5 billy\n" true, .tick 75000, .fire 0 0, .fire 0 1]

set_option maxRecDepth 8192 in
theorem blocks_balance_iff_run : ∃ d s, Fresh d ∧
    run (step sampleConfig) noResize ⟨0, d⟩ sampleTimers = some s ∧
      s.driver.log = [ascii "billy", ascii "billy", ascii "dakota"] ∧
      Always (step sampleConfig) (fun s => Balanced s.driver) ⟨0, d⟩ sampleTimers ∧
      UnloadClean s.driver := by
  have hrun : (run (step sampleConfig) noResize ⟨0, Driver.withTable ⟨0, none, [], 0, [], []⟩ 2 2⟩
      sampleTimers).any (fun s => s.driver.gTimers ≠ none ∧
        s.driver.log = [ascii "billy", ascii "billy", ascii "dakota"] ∧
        (s.driver.tables.all fun tb => tb.slots.all fun x => !decide x.Active)) = true := by
    decide
  obtain ⟨s, hs, hp⟩ := (Option.any_eq_true _ _).mp hrun
  obtain ⟨htable, hlog, hidle⟩ := of_decide_eq_true hp
  have hmeets : (run (step sampleConfig) noUpdateCheck
      ⟨0, Driver.withTable ⟨0, none, [], 0, [], []⟩ 2 2⟩ sampleTimers).isSome = true := by
    decide
  obtain ⟨u, hu⟩ := Option.isSome_iff_exists.mp hmeets
  have hfresh : Fresh (Driver.withTable ⟨0, none, [], 0, [], []⟩ 2 2) := ⟨2, true, 0, rfl⟩
  refine ⟨_, s, hfresh, hs, hlog, (blocks_balance_iff sampleConfig 0 _ hfresh _ s hs).mpr
    ⟨meets_of_run noUpdate_of_check hu, fun t i x hx => ?_, fun _ => htable⟩⟩
  simpa using all_slots s.driver _ hidle t i x hx

set_option maxRecDepth 8192 in
/-- A timer that is set again loses its first message, and nothing ever frees it. -/
theorem update_leaks : ¬ ∀ (cfg : Config) (now : ℕ) (d : Driver), Fresh d →
    ∀ (es : List Event) (s : State), run (step cfg) noResize ⟨now, d⟩ es = some s →
      Always (step cfg) (fun s => Balanced s.driver) ⟨now, d⟩ es ∧ UnloadClean s.driver := by
  intro hall
  have hrun : (run (step sampleConfig) noResize (loaded 0 true) [sampleWrite "5 billy\n" true,
      sampleWrite "7 billy\n" true, .tick 1750, .fire 0 0]).any (fun s =>
        s.driver.timersDestroy.all fun d => 1 < d.nextBlock ∧ d.freed.count 1 = 0) = true := by
    decide
  obtain ⟨s, hs, hp⟩ := (Option.any_eq_true _ _).mp hrun
  obtain ⟨d', hd', honce⟩ := (hall _ 0 _ (fresh_loaded 0 true) _ s hs).2
  rw [hd'] at hp
  obtain ⟨hlt, hzero⟩ := of_decide_eq_true hp
  rw [honce 1 hlt] at hzero
  cases hzero

end DevKota.Lab2
