import DevKota.Lab2Driver
import DevKota.Runs

/-! What each operation of the lab2 driver does to its slots, and what every run preserves. -/
namespace DevKota.Lab2
open CString Kernel Runs

/-- What a write asks for, found without looking at the driver's state. -/
inductive Request
  | malformed (error : ℤ)
  | nullNumber
  | resize (numTimers : ℤ)
  | set (seconds : ℤ) (message : List Byte)

def controlRequest (input : List Byte) : Request :=
  if (strsep 61 input).1 = ascii "COUNT" then
    match (strsep 61 input).2 with
    | none => .nullNumber
    | some number =>
      match kstrtol number with
      | .error e => .malformed e
      | .ok numTimers => .resize numTimers
  else .malformed (-EINVAL)

def timerRequest (input : List Byte) : Request :=
  match kstrtol (strsep 32 input).1 with
  | .error e => .malformed e
  | .ok seconds =>
    match (strsep 32 input).2 with
    | none => .malformed (-EINVAL)
    | some rest => .set seconds (strsep 10 rest).1

def requestOf (buf : UserBuf) : Request :=
  if buf.bytes.length > 128 then .malformed (-EINVAL)
  else if ¬ buf.mapped then .malformed (-EFAULT)
  else if (cstr (buf.bytes ++ [0])).head? = some 94 then
    controlRequest ((cstr (buf.bytes ++ [0])).drop 1)
  else timerRequest (cstr (buf.bytes ++ [0]))

/-- Carrying a request out. Only the last two kinds look at the state. -/
def Driver.perform (cfg : Config) (now : ℕ) (d : Driver) (alloc : Bool) :
    Request → Option (Driver × ℤ)
  | .malformed e => some (d, e)
  | .nullNumber => none
  | .resize numTimers => d.createTimers numTimers alloc
  | .set seconds message =>
    (d.findAvailableTimer message).bind fun index =>
      if 0 ≤ index then d.setTimer cfg now index seconds message alloc else some (d, 0)

/-- The return value of a write, from that of the parser. -/
def returned (buf : UserBuf) (r : Driver × ℤ) : Driver × ℤ :=
  (r.1, if r.2 < 0 then r.2 else buf.bytes.length)

section Request
variable (cfg : Config) (now : ℕ) (d : Driver) (alloc : Bool)

theorem controlRequest_malformed (input : List Byte) (e : ℤ)
    (h : controlRequest input = .malformed e) : e < 0 := by
  unfold controlRequest at h
  split_ifs at h
  · split at h
    · cases h
    · split at h
      · rename_i hk
        obtain rfl := Request.malformed.inj h
        exact kstrtol_error _ _ hk
      · cases h
  · obtain rfl := Request.malformed.inj h
    decide

theorem timerRequest_malformed (input : List Byte) (e : ℤ)
    (h : timerRequest input = .malformed e) : e < 0 := by
  unfold timerRequest at h
  split at h
  · rename_i hk
    obtain rfl := Request.malformed.inj h
    exact kstrtol_error _ _ hk
  · split at h
    · obtain rfl := Request.malformed.inj h
      decide
    · cases h

/-- What cannot be parsed is answered with an error. -/
theorem requestOf_malformed (buf : UserBuf) (e : ℤ) (h : requestOf buf = .malformed e) :
    e < 0 := by
  unfold requestOf at h
  split_ifs at h
  · obtain rfl := Request.malformed.inj h
    decide
  · exact controlRequest_malformed _ _ h
  · exact timerRequest_malformed _ _ h
  · obtain rfl := Request.malformed.inj h
    decide

theorem parseControlInput_eq (input : List Byte) :
    d.parseControlInput input alloc = d.perform cfg now alloc (controlRequest input) := by
  simp only [Driver.parseControlInput, controlRequest]
  split_ifs
  · cases (strsep 61 input).2 with
    | none => rfl
    | some number =>
      simp only [Option.bind_some]
      cases kstrtol number <;> rfl
  · rfl

/-- Everything `timer_write` does: parse, perform, return. -/
theorem timerWrite_eq (buf : UserBuf) :
    d.timerWrite cfg now buf alloc =
      (d.perform cfg now alloc (requestOf buf)).map (returned buf) := by
  simp only [Driver.timerWrite, requestOf, Driver.parseTimerInput]
  split_ifs
  · rfl
  · rw [parseControlInput_eq cfg now]
    rfl
  · unfold timerRequest
    cases kstrtol (strsep 32 (cstr (buf.bytes ++ [0]))).1 with
    | error e => rfl
    | ok seconds => cases (strsep 32 (cstr (buf.bytes ++ [0]))).2 <;> rfl
  · rfl

end Request

section Slots
variable (d : Driver)

theorem slot_setSlot (t i t' i' : ℕ) (s : MsgTimer) :
    (d.setSlot t i s).slot t' i' =
      if t' = t ∧ i' = i then (d.slot t i).map fun _ => s else d.slot t' i' := by
  unfold Driver.slot Driver.setSlot
  rw [List.getElem?_modify]
  -- another table, another index of the same table, or the place itself
  by_cases ht : t' = t
  · subst ht
    cases htb : d.tables[t']? with
    | none => simp
    | some tb =>
      by_cases hi : i' = i
      · subst hi
        by_cases hl : i' < tb.slots.length
        · simp [hl]
        · simp [hl]
      · have hi' : i ≠ i' := fun h => hi h.symm
        simp [hi, hi']
  · have ht' : t ≠ t' := fun h => ht h.symm
    simp [ht, ht']

theorem slot_setSlot_self (t i : ℕ) (s0 s : MsgTimer) (h : d.slot t i = some s0) :
    (d.setSlot t i s).slot t i = some s := by
  rw [slot_setSlot, if_pos ⟨rfl, rfl⟩, h]
  rfl

/-- What a pass over all tables finds of every slot. -/
theorem all_slots (p : MsgTimer → Bool) (h : (d.tables.all fun tb => tb.slots.all p) = true)
    (t i : ℕ) (s : MsgTimer) (hs : d.slot t i = some s) : p s = true := by
  obtain ⟨tb, htb, hs⟩ := Option.bind_eq_some_iff.mp hs
  exact List.all_eq_true.mp (List.all_eq_true.mp h tb (List.mem_of_getElem? htb)) s
    (List.mem_of_getElem? hs)

/-- A new table adds fresh slots behind all others. -/
theorem slot_append (tb : Table) (t i : ℕ) (d' : Driver) (hd : d'.tables = d.tables ++ [tb]) :
    d'.slot t i = if t = d.tables.length then tb.slots[i]? else d.slot t i := by
  unfold Driver.slot
  rw [hd]
  -- an old table, the new one, or neither
  rcases lt_trichotomy t d.tables.length with ht | ht | ht
  · rw [List.getElem?_append_left ht, if_neg (by omega)]
  · rw [ht, List.getElem?_append_right (le_refl _)]
    simp
  · have h1 : (d.tables ++ [tb])[t]? = none := List.getElem?_eq_none (by simp; omega)
    have h2 : d.tables[t]? = none := List.getElem?_eq_none (by omega)
    rw [h1, h2, if_neg (by omega)]

end Slots

/-- The marker for a slot in use. -/
def MsgTimer.Active (s : MsgTimer) : Prop := s.timer.function = some .timerCb

instance (s : MsgTimer) : Decidable s.Active := inferInstanceAs (Decidable (_ = _))

theorem isSome_function (s : MsgTimer) : s.timer.function.isSome = true ↔ s.Active := by
  unfold MsgTimer.Active
  cases s.timer.function with
  | none => simp
  | some f => cases f; simp

/-- A slot after a message allocation failed in `set_timer`. -/
def MsgTimer.unfilled (s : MsgTimer) : MsgTimer :=
  { timer := { s.timer with function := some .timerCb }, message := .null }

/-- A slot after `set_timer`. -/
def MsgTimer.filled (cfg : Config) (now : ℕ) (s : MsgTimer) (id : ℕ) (seconds : ℤ)
    (message : List Byte) : MsgTimer :=
  { timer := { s.timer with function := some Callback.timerCb }.modTimer now
      (jiffies now + BitVec.ofInt 32 seconds * BitVec.ofNat 32 cfg.HZ)
    message := .block id message }

/-- A free slot's successor when its timer fired. -/
def MsgTimer.fired (s : MsgTimer) : MsgTimer :=
  { s with timer := { s.timer.delTimer with function := none } }

/-- The slot that a message goes to: the one that holds it, or else a free one. -/
structure Chosen (d : Driver) (t i : ℕ) (s : MsgTimer) (m : List Byte) : Prop where
  table : d.gTimers = some t
  index : (i:ℤ) < d.gNumTimers
  slot : d.slot t i = some s
  choice : (s.Active ∧ d.deref s.message = some m) ∨
    (¬ s.Active ∧ ∀ (j : ℕ) (s' : MsgTimer), (j:ℤ) < d.gNumTimers → d.slot t j = some s' →
      s'.Active → d.deref s'.message ≠ some m)

section Search
variable (d : Driver)

theorem current_some (slots : List MsgTimer) (h : d.current = some slots) :
    (d.gNumTimers ≤ 0 ∧ slots = []) ∨
      (0 < d.gNumTimers ∧ ∃ t, d.gTimers = some t ∧ slots.length = d.gNumTimers.toNat ∧
        ∀ i : ℕ, (i:ℤ) < d.gNumTimers → slots[i]? = d.slot t i) := by
  unfold Driver.current at h
  split_ifs at h with hn
  · left
    exact ⟨hn, (Option.some.inj h).symm⟩
  · right
    obtain ⟨t, ht, h⟩ := Option.bind_eq_some_iff.mp h
    obtain ⟨tb, htb, h⟩ := Option.bind_eq_some_iff.mp h
    split_ifs at h with hl
    obtain rfl := Option.some.inj h
    refine ⟨by omega, t, ht, ?_, ?_⟩
    · rw [List.length_take]
      omega
    · intro i hi
      rw [Driver.slot, htb, Option.bind_some, List.getElem?_take_of_lt (by omega)]

/-- The loops meet exactly the slots of the table below the count. -/
theorem current_slot (slots : List MsgTimer) (h : d.current = some slots) (s : MsgTimer)
    (hs : s ∈ slots) :
    ∃ t, ∃ i : ℕ, d.gTimers = some t ∧ (i:ℤ) < d.gNumTimers ∧ d.slot t i = some s := by
  rcases current_some d slots h with ⟨-, rfl⟩ | ⟨-, t, ht, hlen, hslots⟩
  · cases hs
  · obtain ⟨i, hget⟩ := List.getElem?_of_mem hs
    obtain ⟨hi, -⟩ := List.getElem?_eq_some_iff.mp hget
    exact ⟨t, i, ht, by omega, by rw [← hslots i (by omega), hget]⟩

theorem slot_mem_current (slots : List MsgTimer) (h : d.current = some slots) (t i : ℕ)
    (s : MsgTimer) (ht : d.gTimers = some t) (hi : (i:ℤ) < d.gNumTimers)
    (hs : d.slot t i = some s) : s ∈ slots := by
  rcases current_some d slots h with ⟨hn, -⟩ | ⟨-, t', ht', -, hslots⟩
  · omega
  · rw [ht] at ht'
    obtain rfl := Option.some.inj ht'
    exact List.mem_of_getElem? ((hslots i hi).trans hs)

theorem findMessage_some (m : List Byte) (slots : List MsgTimer) (i j : ℕ)
    (h : d.findMessage m i slots = some (some j)) :
    ∃ k s, j = i + k ∧ slots[k]? = some s ∧ s.Active ∧ d.deref s.message = some m := by
  induction slots generalizing i with
  | nil => simp [Driver.findMessage] at h
  | cons s slots ih =>
    -- an idle slot and one with another message are both passed over
    have hnext (h : d.findMessage m (i+1) slots = some (some j)) :
        ∃ k s', j = i + k ∧ (s :: slots)[k]? = some s' ∧ s'.Active ∧
          d.deref s'.message = some m := by
      obtain ⟨k, s', hj, hs', hrest⟩ := ih (i+1) h
      exact ⟨k+1, s', by omega, by simpa using hs', hrest⟩
    simp only [Driver.findMessage] at h
    split_ifs at h with ha
    · obtain ⟨text, htext, h⟩ := Option.bind_eq_some_iff.mp h
      split_ifs at h with hm
      · obtain rfl := Option.some.inj (Option.some.inj h)
        exact ⟨0, s, rfl, rfl, (isSome_function s).mp ha, by rw [htext, hm]⟩
      · exact hnext h
    · exact hnext h

theorem findMessage_none (m : List Byte) (slots : List MsgTimer) (i : ℕ)
    (h : d.findMessage m i slots = some none) (s : MsgTimer) (hs : s ∈ slots) (ha : s.Active) :
    d.deref s.message ≠ some m := by
  induction slots generalizing i with
  | nil => cases hs
  | cons u slots ih =>
    simp only [Driver.findMessage] at h
    split_ifs at h with hu
    · obtain ⟨text, htext, h⟩ := Option.bind_eq_some_iff.mp h
      split_ifs at h with hm
      · cases Option.some.inj h
      · rcases List.mem_cons.mp hs with rfl | hs
        · rw [htext]
          exact fun he => hm (Option.some.inj he)
        · exact ih (i+1) h hs
    · rcases List.mem_cons.mp hs with rfl | hs
      · exact absurd ((isSome_function s).mpr ha) hu
      · exact ih (i+1) h hs

theorem findFree_some (slots : List MsgTimer) (i j : ℕ) (h : Driver.findFree i slots = some j) :
    ∃ k s, j = i + k ∧ slots[k]? = some s ∧ ¬ s.Active := by
  induction slots generalizing i with
  | nil => cases h
  | cons s slots ih =>
    simp only [Driver.findFree] at h
    split_ifs at h with ha
    · obtain rfl := Option.some.inj h
      refine ⟨0, s, rfl, rfl, ?_⟩
      rw [← isSome_function]
      simpa using ha
    · obtain ⟨k, s', hj, hs', hrest⟩ := ih (i+1) h
      exact ⟨k+1, s', by omega, by simpa using hs', hrest⟩

theorem findFree_none (slots : List MsgTimer) (i : ℕ) (h : Driver.findFree i slots = none)
    (s : MsgTimer) (hs : s ∈ slots) : s.Active := by
  induction slots generalizing i with
  | nil => cases hs
  | cons u slots ih =>
    simp only [Driver.findFree] at h
    split_ifs at h with hu
    rcases List.mem_cons.mp hs with rfl | hs
    · rw [← isSome_function]
      simpa [Option.isSome_iff_ne_none] using hu
    · exact ih (i+1) h hs

/-- A search that ends has found the slot for the message, or a full table without it. -/
theorem findAvailableTimer_cases (m : List Byte) (index : ℤ)
    (h : d.findAvailableTimer m = some index) :
    (∃ t i s, index = (i:ℕ) ∧ Chosen d t i s m) ∨
      (index = -ENOMEM ∧ ∀ (t j : ℕ) (s' : MsgTimer), d.gTimers = some t → (j:ℤ) < d.gNumTimers →
        d.slot t j = some s' → s'.Active → d.deref s'.message ≠ some m) := by
  obtain ⟨slots, hcur, h⟩ := Option.bind_eq_some_iff.mp h
  obtain ⟨found, hfound, h⟩ := Option.map_eq_some_iff.mp h
  have hlt (t k : ℕ) (s : MsgTimer) (hlen : slots.length = d.gNumTimers.toNat)
      (hk : slots[k]? = some s) : (k:ℤ) < d.gNumTimers := by
    obtain ⟨hk', -⟩ := List.getElem?_eq_some_iff.mp hk
    omega
  rcases current_some d slots hcur with ⟨hn, rfl⟩ | ⟨-, t, ht, hlen, hslots⟩
  · -- no timers are asked for, so both loops run over nothing
    right
    obtain rfl := Option.some.inj hfound
    exact ⟨h.symm, fun _ j _ _ hj => by omega⟩
  · have hmiss (hnone : d.findMessage m 0 slots = some none) (j : ℕ) (s' : MsgTimer)
        (hj : (j:ℤ) < d.gNumTimers) (hs' : d.slot t j = some s') (ha' : s'.Active) :
        d.deref s'.message ≠ some m := by
      rw [← hslots j hj] at hs'
      exact findMessage_none d m slots 0 hnone s' (List.mem_of_getElem? hs') ha'
    -- the second loop only runs when the first one found nothing
    cases found with
    | some j =>
      left
      obtain ⟨k, s, hj, hk, ha, hm⟩ := findMessage_some d m slots 0 j hfound
      obtain rfl : j = k := by omega
      have hjlt := hlt t j s hlen hk
      exact ⟨t, j, s, h.symm, ht, hjlt, by rw [← hslots j hjlt, hk], Or.inl ⟨ha, hm⟩⟩
    | none =>
      cases hfree : Driver.findFree 0 slots with
      | none =>
        right
        simp only [hfree] at h
        refine ⟨h.symm, ?_⟩
        intro t' j s' ht' hj hs' ha'
        rw [ht] at ht'
        obtain rfl := Option.some.inj ht'
        exact hmiss hfound j s' hj hs' ha'
      | some j =>
        left
        simp only [hfree] at h
        obtain ⟨k, s, hj, hk, ha⟩ := findFree_some slots 0 j hfree
        obtain rfl : j = k := by omega
        have hjlt := hlt t j s hlen hk
        exact ⟨t, j, s, h.symm, ht, hjlt, by rw [← hslots j hjlt, hk],
          Or.inr ⟨ha, hmiss hfound⟩⟩

/-- A search that comes back with `-ENOMEM` met no free slot. -/
theorem search_full (m : List Byte) (slots : List MsgTimer) (hcur : d.current = some slots)
    (hf : d.findAvailableTimer m = some (-ENOMEM)) (s : MsgTimer) (hs : s ∈ slots) : s.Active := by
  rw [Driver.findAvailableTimer, hcur, Option.bind_some] at hf
  obtain ⟨found, -, hf⟩ := Option.map_eq_some_iff.mp hf
  -- an index that was found is not negative
  cases found with
  | some j =>
    rw [ENOMEM] at hf
    simp only at hf
    omega
  | none =>
    cases hfree : Driver.findFree 0 slots with
    | some j =>
      simp only [hfree, ENOMEM] at hf
      omega
    | none => exact findFree_none slots 0 hfree s hs

end Search

/-- The driver after `create_timers` got memory with room for `k` slots: a block, unless it asked
for no bytes. -/
def Driver.withTable (d : Driver) (n : ℤ) (k : ℕ) : Driver :=
  { d with
    gNumTimers := n
    gTimers := some d.tables.length
    tables := d.tables ++
      [⟨if kmallocSize n = 0 then none else some d.nextBlock, List.replicate k freshSlot⟩]
    nextBlock := if kmallocSize n = 0 then d.nextBlock else d.nextBlock + 1 }

section Table
variable (d : Driver) (n : ℤ) (alloc : Bool)

/-- A product that does not wrap is the size in exact arithmetic. -/
theorem kmallocSize_eq (h0 : 0 ≤ n) (h : n*sizeofMsgTimer < 2^32) :
    (kmallocSize n : ℤ) = n*sizeofMsgTimer := by
  unfold kmallocSize
  rw [sizeofMsgTimer] at h ⊢
  omega

theorem createTimers_refused (h : alloc = false ∧ kmallocSize n ≠ 0) :
    d.createTimers n alloc = some ({ d with gNumTimers := n, gTimers := none }, -1) := by
  rw [Driver.createTimers, if_pos ⟨by simp [h.1], h.2⟩]

/-- `timer_init` stays inside the block unless the block is smaller than the table. -/
theorem createTimers_got (h : alloc = true ∨ kmallocSize n = 0) : d.createTimers n alloc =
    if (kmallocSize n : ℤ) < n*sizeofMsgTimer then none
    else some (d.withTable n (kmallocSize n / sizeofMsgTimer), 0) := by
  have hgot : ¬ (¬ alloc = true ∧ kmallocSize n ≠ 0) := fun hno => h.elim hno.1 hno.2
  have hslots : ((kmallocSize n / sizeofMsgTimer : ℕ) : ℤ) < n ↔
      (kmallocSize n : ℤ) < n*sizeofMsgTimer := by
    rw [sizeofMsgTimer]
    omega
  rw [← ite_congr (propext hslots) (fun _ => rfl) (fun _ => rfl), Driver.createTimers, if_neg hgot]
  rfl

theorem withTable_nextBlock (k : ℕ) : d.nextBlock ≤ (d.withTable n k).nextBlock := by
  unfold Driver.withTable
  simp only
  split_ifs
  · exact le_refl _
  · exact Nat.le_succ _

end Table

/-- Everything that carrying out a request can do, with the value it returns. -/
inductive Effect (cfg : Config) (now : ℕ) (d : Driver) (alloc : Bool) :
    Request → Driver → ℤ → Prop
  | malformed (e : ℤ) : Effect cfg now d alloc (.malformed e) d e
  | noTable (n : ℤ) (ha : alloc = false) (hsize : kmallocSize n ≠ 0) :
      Effect cfg now d alloc (.resize n) { d with gNumTimers := n, gTimers := none } (-1)
  | newTable (n : ℤ) (k : ℕ) (ha : alloc = true ∨ kmallocSize n = 0) (hk : n ≤ k)
      (hsize : kmallocSize n = 0 → k = 0) :
      Effect cfg now d alloc (.resize n) (d.withTable n k) 0
  | full (seconds : ℤ) (m : List Byte) (hf : d.findAvailableTimer m = some (-ENOMEM)) :
      Effect cfg now d alloc (.set seconds m) d 0
  | unfilled (seconds : ℤ) (m : List Byte) (t i : ℕ) (s : MsgTimer) (ha : alloc = false)
      (hf : d.findAvailableTimer m = some (i:ℤ)) (hc : Chosen d t i s m) :
      Effect cfg now d alloc (.set seconds m) (d.setSlot t i s.unfilled) (-ENOMEM)
  | filled (seconds : ℤ) (m : List Byte) (t i : ℕ) (s : MsgTimer) (r : ℤ) (ha : alloc = true)
      (hf : d.findAvailableTimer m = some (i:ℤ)) (hc : Chosen d t i s m) (hr : 0 ≤ r) :
      Effect cfg now d alloc (.set seconds m)
        { d.setSlot t i (s.filled cfg now d.nextBlock seconds m) with
          nextBlock := d.nextBlock + 1 } r

section Effects
variable (cfg : Config) (now : ℕ) (d d' : Driver) (alloc : Bool)

theorem setTimer_chosen (t i : ℕ) (s : MsgTimer) (m message : List Byte) (seconds : ℤ)
    (hc : Chosen d t i s m) :
    d.setTimer cfg now i seconds message alloc =
      some (if alloc then
        ({ d.setSlot t i (s.filled cfg now d.nextBlock seconds message) with
          nextBlock := d.nextBlock + 1 }, if s.timer.pending then 1 else 0)
      else (d.setSlot t i s.unfilled, -ENOMEM)) := by
  have hnot : ¬ ((i:ℤ) < 0 ∨ d.gNumTimers ≤ i) := by
    have := hc.index
    omega
  rw [Driver.setTimer, if_neg hnot, hc.table, Option.bind_some, Int.toNat_natCast, hc.slot,
    Option.bind_some]
  cases alloc <;> rfl

theorem perform_effect (req : Request) (r : ℤ)
    (h : d.perform cfg now alloc req = some (d', r)) : Effect cfg now d alloc req d' r := by
  cases req with
  | malformed e =>
    obtain ⟨rfl, rfl⟩ := Prod.mk.inj (Option.some.inj h)
    exact Effect.malformed e
  | nullNumber => cases h
  | resize n =>
    by_cases hgot : alloc = true ∨ kmallocSize n = 0
    · -- a call that came back stayed inside its block
      rw [Driver.perform, createTimers_got d n alloc hgot] at h
      split_ifs at h with hsmall
      obtain ⟨rfl, rfl⟩ := Prod.mk.inj (Option.some.inj h)
      refine Effect.newTable n _ hgot ?_ fun hzero => by rw [hzero, Nat.zero_div]
      rw [sizeofMsgTimer] at hsmall ⊢
      omega
    · rw [not_or, Bool.not_eq_true] at hgot
      rw [Driver.perform, createTimers_refused d n alloc hgot] at h
      obtain ⟨rfl, rfl⟩ := Prod.mk.inj (Option.some.inj h)
      exact Effect.noTable n hgot.1 hgot.2
  | set seconds m =>
    obtain ⟨index, hf, h⟩ := Option.bind_eq_some_iff.mp h
    rcases findAvailableTimer_cases d m index hf with ⟨t, i, s, rfl, hc⟩ | ⟨rfl, -⟩
    · rw [if_pos (by omega), setTimer_chosen cfg now d alloc t i s m m seconds hc] at h
      cases alloc with
      | false =>
        obtain ⟨rfl, rfl⟩ := Prod.mk.inj (Option.some.inj h)
        exact Effect.unfilled seconds m t i s rfl hf hc
      | true =>
        obtain ⟨rfl, rfl⟩ := Prod.mk.inj (Option.some.inj h)
        refine Effect.filled seconds m t i s _ rfl hf hc ?_
        split_ifs <;> decide
    · rw [if_neg (by decide)] at h
      obtain ⟨rfl, rfl⟩ := Prod.mk.inj (Option.some.inj h)
      exact Effect.full seconds m hf

theorem kfree_cases (p : Pointer) (h : d.kfree p = some d') :
    d'.tables = d.tables ∧ d'.gNumTimers = d.gNumTimers ∧ d'.gTimers = d.gTimers ∧
      d'.nextBlock = d.nextBlock ∧
      ((p = .null ∧ d'.freed = d.freed) ∨
        ∃ id text, p = .block id text ∧ id ∉ d.freed ∧ d'.freed = id :: d.freed) := by
  cases p with
  | junk => cases h
  | null =>
    obtain rfl := Option.some.inj h
    exact ⟨rfl, rfl, rfl, rfl, Or.inl ⟨rfl, rfl⟩⟩
  | block id text =>
    simp only [Driver.kfree] at h
    split_ifs at h with hid
    obtain rfl := Option.some.inj h
    exact ⟨rfl, rfl, rfl, rfl, Or.inr ⟨id, text, rfl, hid, rfl⟩⟩

/-- Everything that an expiry can do: the slot is free again, and its message, if it has one,
is freed. -/
theorem expire_cases (t i : ℕ) (h : d.expire t i = some d') :
    ∃ s, d.slot t i = some s ∧ s.Active ∧
      (∀ t' i', d'.slot t' i' = if t' = t ∧ i' = i then some s.fired else d.slot t' i') ∧
      d'.gNumTimers = d.gNumTimers ∧ d'.gTimers = d.gTimers ∧ d'.nextBlock = d.nextBlock ∧
      ((s.message = .null ∧ d'.freed = d.freed) ∨
        ∃ id text, s.message = .block id text ∧ id ∉ d.freed ∧ d'.freed = id :: d.freed) := by
  obtain ⟨s, hs, h⟩ := Option.bind_eq_some_iff.mp h
  have ha : s.Active := by
    rw [← isSome_function]
    cases hf : s.timer.function with
    | none => rw [hf] at h; cases h
    | some f => rfl
  have ha' : s.timer.function = some Callback.timerCb := ha
  rw [ha'] at h
  -- the slot is stored twice: by the kernel, which detaches it, and by the callback
  have hs' := slot_setSlot_self d t i s { s with timer := s.timer.delTimer } hs
  simp only [Driver.timerCb, hs', Option.bind_some] at h
  obtain ⟨text, htext, h⟩ := Option.bind_eq_some_iff.mp h
  have hslots (d'' : Driver) (hd : d''.tables = ((d.setSlot t i
      { s with timer := s.timer.delTimer }).setSlot t i s.fired).tables) (t' i' : ℕ) :
      d''.slot t' i' = if t' = t ∧ i' = i then some s.fired else d.slot t' i' := by
    have hslot : d''.slot t' i' = ((d.setSlot t i
        { s with timer := s.timer.delTimer }).setSlot t i s.fired).slot t' i' := by
      unfold Driver.slot
      rw [hd]
    rw [hslot, slot_setSlot, slot_setSlot, slot_setSlot, hs]
    by_cases hti : t' = t ∧ i' = i
    · simp [hti]
    · simp [hti]
  obtain ⟨htables, hnum, hcur, hnext, hfreed⟩ := kfree_cases _ _ _ h
  exact ⟨s, hs, ha, hslots d' htables, hnum, hcur, hnext, hfreed⟩

end Effects

/-- What holds at every point of every run, whatever is written and whichever allocations
fail: armed timers have their callback, an active slot's message is NULL or a live block of
its own, and the current table has all the slots it is said to have. -/
structure Inv (d : Driver) : Prop where
  armed (t i : ℕ) (s : MsgTimer) : d.slot t i = some s → s.timer.pending = true → s.Active
  message (t i : ℕ) (s : MsgTimer) : d.slot t i = some s → s.Active →
    s.message = .null ∨ ∃ id text, s.message = .block id text ∧ id ∉ d.freed ∧ id < d.nextBlock
  distinct (t i : ℕ) (s : MsgTimer) (t' i' : ℕ) (s' : MsgTimer) (id : ℕ) (x y : List Byte) :
    d.slot t i = some s → s.Active → s.message = .block id x →
      d.slot t' i' = some s' → s'.Active → s'.message = .block id y → t' = t ∧ i' = i
  freed (id : ℕ) : id ∈ d.freed → id < d.nextBlock
  table (t : ℕ) : d.gTimers = some t → ∀ i : ℕ, (i:ℤ) < d.gNumTimers → ∃ s, d.slot t i = some s

section Preserve
variable (cfg : Config) (now : ℕ) (d d' : Driver)

/-- A block that an active slot holds is below the next one and not freed. -/
theorem live_block (h : Inv d) (t i : ℕ) (s : MsgTimer) (id : ℕ) (x : List Byte)
    (hs : d.slot t i = some s) (ha : s.Active) (hm : s.message = .block id x) :
    id ∉ d.freed ∧ id < d.nextBlock := by
  rcases h.message t i s hs ha with hnull | ⟨id', text, hb, hlive⟩
  · rw [hm] at hnull
    cases hnull
  · rw [hm] at hb
    obtain ⟨rfl, -⟩ := Pointer.block.inj hb
    exact hlive

/-- The block of a message that was just set can be read. -/
theorem deref_filled (h : Inv d) (s : MsgTimer) (seconds : ℤ) (m : List Byte) :
    d.deref (s.filled cfg now d.nextBlock seconds m).message = some m := by
  have hfresh : d.nextBlock ∉ d.freed := fun hid => lt_irrefl _ (h.freed _ hid)
  rw [MsgTimer.filled, Driver.deref, if_neg hfresh]

theorem stored_cases (t i : ℕ) (s : MsgTimer)
    (hs : ∀ t' i', d'.slot t' i' = if t' = t ∧ i' = i then some s else d.slot t' i')
    (t' i' : ℕ) (s' : MsgTimer) (hs' : d'.slot t' i' = some s') :
    ((t' = t ∧ i' = i) ∧ s' = s) ∨ (¬ (t' = t ∧ i' = i) ∧ d.slot t' i' = some s') := by
  rw [hs] at hs'
  split_ifs at hs' with hti
  · exact Or.inl ⟨hti, (Option.some.inj hs').symm⟩
  · exact Or.inr ⟨hti, hs'⟩

/-- One slot is stored over `s0`: it is free, or holds NULL or a new block, and the only block
that may be freed with it is the one that `s0` held. -/
structure Stores (t i : ℕ) (s0 s : MsgTimer) : Prop where
  old : d.slot t i = some s0
  slot (t' i' : ℕ) : d'.slot t' i' = if t' = t ∧ i' = i then some s else d.slot t' i'
  gNumTimers : d'.gNumTimers = d.gNumTimers
  gTimers : d'.gTimers = d.gTimers
  nextBlock : d.nextBlock ≤ d'.nextBlock
  armed : s.timer.pending = true → s.Active
  message : s.Active → s.message = .null ∨
    ∃ text, s.message = .block d.nextBlock text ∧ d.nextBlock < d'.nextBlock
  freed (id : ℕ) : id ∈ d'.freed → id ∈ d.freed ∨ s0.Active ∧ ∃ text, s0.message = .block id text

section Store
variable (h : Inv d) (t i : ℕ) (s0 s : MsgTimer) (hs : Stores d d' t i s0 s)
include h hs

theorem store_freed (id : ℕ) (hid : id ∈ d'.freed) : id < d.nextBlock := by
  rcases hs.freed id hid with hid | ⟨ha, text, hm⟩
  · exact h.freed id hid
  · exact (live_block d h t i s0 id text hs.old ha hm).2

theorem store_message (t' i' : ℕ) (s' : MsgTimer) (hs' : d'.slot t' i' = some s') (ha : s'.Active) :
    s'.message = .null ∨
      ∃ id text, s'.message = .block id text ∧ id ∉ d'.freed ∧ id < d'.nextBlock := by
  rcases stored_cases d d' t i s hs.slot t' i' s' hs' with ⟨-, rfl⟩ | ⟨hti, hold⟩
  · rcases hs.message ha with hnull | ⟨text, hb, hlt⟩
    · exact Or.inl hnull
    · refine Or.inr ⟨_, text, hb, ?_, hlt⟩
      intro hid
      exact lt_irrefl _ (store_freed d d' h t i s0 s' hs _ hid)
  · rcases h.message t' i' s' hold ha with hnull | ⟨id, text, hb, hlive, hlt⟩
    · exact Or.inl hnull
    · refine Or.inr ⟨id, text, hb, ?_, lt_of_lt_of_le hlt hs.nextBlock⟩
      intro hid
      -- a block freed with the old slot was that slot's alone
      rcases hs.freed id hid with hid | ⟨ha0, text0, hm0⟩
      · exact hlive hid
      · exact hti (h.distinct t i s0 t' i' s' id text0 text hs.old ha0 hm0 hold ha hb)

theorem store_fresh (t' i' : ℕ) (s' : MsgTimer) (id : ℕ) (x y : List Byte) (ha : s.Active)
    (hm : s.message = .block id x) (hs' : d.slot t' i' = some s') (ha' : s'.Active) :
    s'.message ≠ .block id y := by
  intro hm'
  have hlt := (live_block d h t' i' s' id y hs' ha' hm').2
  rcases hs.message ha with hnull | ⟨text, hb, -⟩
  · rw [hm] at hnull
    cases hnull
  · rw [hm] at hb
    have hid := (Pointer.block.inj hb).1
    omega

theorem store_distinct (t1 i1 : ℕ) (s1 : MsgTimer) (t2 i2 : ℕ) (s2 : MsgTimer) (id : ℕ)
    (x y : List Byte) (hs1 : d'.slot t1 i1 = some s1) (ha1 : s1.Active)
    (hm1 : s1.message = .block id x) (hs2 : d'.slot t2 i2 = some s2) (ha2 : s2.Active)
    (hm2 : s2.message = .block id y) : t2 = t1 ∧ i2 = i1 := by
  have hcase := stored_cases d d' t i s hs.slot
  rcases hcase t1 i1 s1 hs1 with ⟨hti1, rfl⟩ | ⟨-, hold1⟩
  · rcases hcase t2 i2 s2 hs2 with ⟨hti2, -⟩ | ⟨-, hold2⟩
    · exact ⟨hti2.1.trans hti1.1.symm, hti2.2.trans hti1.2.symm⟩
    · exact absurd hm2 (store_fresh d d' h t i s0 s1 hs t2 i2 s2 id x y ha1 hm1 hold2 ha2)
  · rcases hcase t2 i2 s2 hs2 with ⟨-, rfl⟩ | ⟨-, hold2⟩
    · exact absurd hm1 (store_fresh d d' h t i s0 s2 hs t1 i1 s1 id y x ha2 hm2 hold1 ha1)
    · exact h.distinct t1 i1 s1 t2 i2 s2 id x y hold1 ha1 hm1 hold2 ha2 hm2

theorem inv_store : Inv d' where
  armed t' i' s' hs' hp := by
    rcases stored_cases d d' t i s hs.slot t' i' s' hs' with ⟨-, rfl⟩ | ⟨-, hold⟩
    · exact hs.armed hp
    · exact h.armed t' i' s' hold hp
  message := store_message d d' h t i s0 s hs
  distinct := store_distinct d d' h t i s0 s hs
  freed id hid := lt_of_lt_of_le (store_freed d d' h t i s0 s hs id hid) hs.nextBlock
  table t' ht' i' hi' := by
    rw [hs.gTimers] at ht'
    rw [hs.gNumTimers] at hi'
    rw [hs.slot]
    split_ifs
    · exact ⟨s, rfl⟩
    · exact h.table t' ht' i' hi'

end Store

theorem inv_setSlot_slot (t i : ℕ) (s0 s : MsgTimer) (h0 : d.slot t i = some s0)
    (ht : d'.tables = (d.setSlot t i s).tables) (t' i' : ℕ) :
    d'.slot t' i' = if t' = t ∧ i' = i then some s else d.slot t' i' := by
  have hslot : d'.slot t' i' = (d.setSlot t i s).slot t' i' := by
    unfold Driver.slot
    rw [ht]
  rw [hslot, slot_setSlot, h0]
  rfl

theorem stores_unfilled (t i : ℕ) (s : MsgTimer) (m : List Byte) (hc : Chosen d t i s m) :
    Stores d (d.setSlot t i s.unfilled) t i s s.unfilled where
  old := hc.slot
  slot := inv_setSlot_slot d _ t i s _ hc.slot rfl
  gNumTimers := rfl
  gTimers := rfl
  nextBlock := le_refl _
  armed _ := rfl
  message _ := Or.inl rfl
  freed _ hid := Or.inl hid

theorem stores_filled (t i : ℕ) (s : MsgTimer) (m : List Byte) (hc : Chosen d t i s m)
    (seconds : ℤ) :
    Stores d { d.setSlot t i (s.filled cfg now d.nextBlock seconds m) with
      nextBlock := d.nextBlock + 1 } t i s (s.filled cfg now d.nextBlock seconds m) where
  old := hc.slot
  slot := inv_setSlot_slot d _ t i s _ hc.slot rfl
  gNumTimers := rfl
  gTimers := rfl
  nextBlock := Nat.le_succ _
  armed _ := rfl
  message _ := Or.inr ⟨m, rfl, Nat.lt_succ_self _⟩
  freed _ hid := Or.inl hid

theorem fired_idle (s : MsgTimer) : ¬ s.fired.Active := fun hact => by cases hact

theorem expire_stores (t i : ℕ) (he : d.expire t i = some d') :
    ∃ s, s.Active ∧ Stores d d' t i s s.fired := by
  obtain ⟨s, hs, ha, hslots, hnum, hcur, hnext, hfreed⟩ := expire_cases d d' t i he
  refine ⟨s, ha, hs, hslots, hnum, hcur, le_of_eq hnext.symm, (fun hp => by cases hp),
    fun hact => absurd hact (fired_idle s), ?_⟩
  intro id hid
  -- a slot without a message frees nothing
  rcases hfreed with ⟨-, heq⟩ | ⟨id', text, hm, -, heq⟩
  · rw [heq] at hid
    exact Or.inl hid
  · rw [heq] at hid
    rcases List.mem_cons.mp hid with rfl | hid
    · exact Or.inr ⟨ha, text, hm⟩
    · exact Or.inl hid

theorem freshSlot_idle : ¬ freshSlot.Active ∧ freshSlot.timer.pending = false :=
  ⟨by decide, rfl⟩

theorem withTable_slot (n : ℤ) (k t i : ℕ) (s : MsgTimer)
    (hs : (d.withTable n k).slot t i = some s) :
    (t = d.tables.length ∧ i < k ∧ s = freshSlot) ∨ (t ≠ d.tables.length ∧ d.slot t i = some s) := by
  rw [slot_append d _ t i (d.withTable n k) rfl] at hs
  change (if t = d.tables.length then (List.replicate k freshSlot)[i]? else d.slot t i) = some s at hs
  split_ifs at hs with hl
  · left
    obtain ⟨hi, hv⟩ := List.getElem?_eq_some_iff.mp hs
    rw [List.getElem_replicate] at hv
    exact ⟨hl, by simpa using hi, hv.symm⟩
  · exact Or.inr ⟨hl, hs⟩

/-- A new table leaves the old ones as they are, out of reach of the globals. -/
theorem inv_withTable (n : ℤ) (k : ℕ) (h : Inv d) (hk : n ≤ k) : Inv (d.withTable n k) := by
  have hslot := withTable_slot d n k
  have hnext := withTable_nextBlock d n k
  constructor
  · intro t i s hs hp
    rcases hslot t i s hs with ⟨-, -, rfl⟩ | ⟨-, hold⟩
    · cases hp
    · exact h.armed t i s hold hp
  · intro t i s hs hact
    rcases hslot t i s hs with ⟨-, -, rfl⟩ | ⟨-, hold⟩
    · exact absurd hact freshSlot_idle.1
    · rcases h.message t i s hold hact with hnull | ⟨id, text, hb, hlive, hlt⟩
      · exact Or.inl hnull
      · exact Or.inr ⟨id, text, hb, hlive, lt_of_lt_of_le hlt hnext⟩
  · intro t i s t' i' s' id x y hs hact hm hs' hact' hm'
    -- slots of the new table are free, so both places are in old tables
    rcases hslot t i s hs with ⟨-, -, rfl⟩ | ⟨-, hold⟩
    · exact absurd hact freshSlot_idle.1
    · rcases hslot t' i' s' hs' with ⟨-, -, rfl⟩ | ⟨-, hold'⟩
      · exact absurd hact' freshSlot_idle.1
      · exact h.distinct t i s t' i' s' id x y hold hact hm hold' hact' hm'
  · intro id hid
    exact lt_of_lt_of_le (h.freed id hid) hnext
  · intro t ht i hi
    obtain rfl := Option.some.inj ht
    refine ⟨freshSlot, ?_⟩
    have hik : i < k := by
      have hin : (i:ℤ) < n := hi
      omega
    rw [slot_append d _ _ _ _ rfl, if_pos rfl]
    simp [hik]

theorem effect_inv (alloc : Bool) (req : Request) (r : ℤ) (h : Inv d)
    (he : Effect cfg now d alloc req d' r) : Inv d' := by
  cases he with
  | malformed e => exact h
  | noTable n ha hsize =>
    refine ⟨h.armed, h.message, h.distinct, h.freed, ?_⟩
    intro t ht
    cases ht
  | newTable n k ha hk hsize => exact inv_withTable d n k h hk
  | full seconds m hf => exact h
  | unfilled seconds m t i s ha hf hc =>
    exact inv_store d _ h t i s s.unfilled (stores_unfilled d t i s m hc)
  | filled seconds m t i s r ha hf hc hr =>
    exact inv_store d _ h t i s _ (stores_filled cfg now d t i s m hc seconds)

theorem expire_inv (t i : ℕ) (h : Inv d) (he : d.expire t i = some d') : Inv d' := by
  obtain ⟨s, -, hs⟩ := expire_stores d d' t i he
  exact inv_store d d' h t i s s.fired hs

/-- The zeroed globals, before the load. -/
theorem inv_zeroed : Inv ⟨0, none, [], 0, [], []⟩ := by
  constructor
  · intro t i s hs
    cases hs
  · intro t i s hs
    cases hs
  · intro t i s t' i' s' id x y hs
    cases hs
  · intro id hid
    cases hid
  · intro t ht
    cases ht

theorem inv_init (alloc : Bool) : Inv (Driver.myModuleInit alloc) := by
  cases alloc with
  | false =>
    exact effect_inv ⟨1, by decide, by decide⟩ 0 _ _ false _ _ inv_zeroed
      (Effect.noTable 1 rfl (by decide))
  | true =>
    exact effect_inv ⟨1, by decide, by decide⟩ 0 _ _ true _ _ inv_zeroed
      (Effect.newTable 1 1 (Or.inl rfl) (by decide) (by decide))

/-- No slot is in use after the load. -/
theorem init_idle (alloc : Bool) (t i : ℕ) (s : MsgTimer)
    (hs : (Driver.myModuleInit alloc).slot t i = some s) : ¬ s.Active := by
  cases alloc with
  | false => cases hs
  | true =>
    rcases withTable_slot ⟨0, none, [], 0, [], []⟩ 1 1 t i s hs with ⟨-, -, rfl⟩ | ⟨-, hold⟩
    · exact freshSlot_idle.1
    · cases hold

/-- A step is a passing of time, a performed request or the expiry of a timer that is due. -/
theorem step_cases (s s' : State) (e : Event) (hs : step cfg s e = some s') :
    (∃ ticks, e = .tick ticks ∧ s'.driver = s.driver) ∨
      (∃ buf alloc r, e = .write buf alloc ∧
        Effect cfg s.now s.driver alloc (requestOf buf) s'.driver r) ∨
      ∃ t i x, e = .fire t i ∧ s.driver.slot t i = some x ∧ x.timer.Expired s.now ∧
        s.driver.expire t i = some s'.driver := by
  cases e with
  | tick ticks =>
    obtain rfl := Option.some.inj hs
    exact Or.inl ⟨ticks, rfl, rfl⟩
  | write buf alloc =>
    obtain ⟨r, hr, rfl⟩ := Option.map_eq_some_iff.mp hs
    rw [timerWrite_eq] at hr
    obtain ⟨q, hq, rfl⟩ := Option.map_eq_some_iff.mp hr
    exact Or.inr (Or.inl ⟨buf, alloc, q.2, rfl, perform_effect cfg s.now _ _ alloc _ _ hq⟩)
  | fire t i =>
    simp only [step] at hs
    split_ifs at hs with hx
    obtain ⟨x, hslot, hx⟩ := (Option.any_eq_true _ _).mp hx
    obtain ⟨d', hd, rfl⟩ := Option.map_eq_some_iff.mp hs
    exact Or.inr (Or.inr ⟨t, i, x, rfl, hslot, of_decide_eq_true hx, hd⟩)

theorem step_inv (s s' : State) (e : Event) (h : Inv s.driver) (hs : step cfg s e = some s') :
    Inv s'.driver := by
  rcases step_cases cfg s s' e hs with
    ⟨ticks, -, heq⟩ | ⟨buf, alloc, r, -, he⟩ | ⟨t, i, x, -, -, -, he⟩
  · rw [heq]
    exact h
  · exact effect_inv cfg s.now _ _ alloc _ _ h he
  · exact expire_inv _ _ t i h he

theorem inv_reach (load : ℕ) (alloc : Bool) (s : State)
    (h : Reach (step cfg) (fun _ _ => True) (loaded load alloc) s) : Inv s.driver :=
  reach_invariant (I := fun s => Inv s.driver)
    (fun s e t hi _ hs => step_inv cfg s t e hi hs) h (inv_init alloc)

end Preserve

end DevKota.Lab2
