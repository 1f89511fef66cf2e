import DevKota.CheckedStrings
import DevKota.Lab2Armed
import DevKota.Lab2Client
import DevKota.Lab2Resize

/-! The write path of the lab2 driver with every access to `kbuf` and every string pointer
checked. -/
namespace DevKota.Lab2
open CString Kernel Runs

namespace Driver

/-- `parse_control_input`, on the pointer `input` into `kbuf`. The inner `none` is an operation on
the table that touches memory it does not own. -/
def parseControlInputIn (d : Driver) (kbuf : Buffer 128) (input : ℕ) (alloc : Bool) :
    Except Fault (Option (Driver × ℤ)) :=
  (kbuf.strsepAt 61 (some input)).bind fun (token, input, kbuf) =>
    if token = none then .ok (some (d, -EINVAL))
    else
      (kbuf.stringAt token).bind fun name =>
        if name = ascii "COUNT" then
          -- the cursor is handed on without a look at it
          (kbuf.stringAt input).map fun number =>
            match kstrtol number with
            | .error e => some (d, e)
            | .ok numTimers => d.createTimers numTimers alloc
        else .ok (some (d, -EINVAL))

/-- `parse_timer_input`, on the start of `kbuf`. -/
def parseTimerInputIn (cfg : Config) (now : ℕ) (d : Driver) (kbuf : Buffer 128) (alloc : Bool) :
    Except Fault (Option (Driver × ℤ)) :=
  (kbuf.load 0).bind fun c =>
    if c = 94 then d.parseControlInputIn kbuf 1 alloc
    else
      (kbuf.strsepAt 32 (some 0)).bind fun (token, input, kbuf) =>
        if token = none then .ok (some (d, -EINVAL))
        else
          (kbuf.stringAt token).bind fun number =>
            match kstrtol number with
            | .error e => .ok (some (d, e))
            | .ok seconds =>
              (kbuf.strsepAt 10 input).bind fun (message, _, kbuf) =>
                if message = none then .ok (some (d, -EINVAL))
                else
                  (kbuf.stringAt message).map fun message =>
                    (d.findAvailableTimer message).bind fun index =>
                      if 0 ≤ index then d.setTimer cfg now index seconds message alloc
                      else some (d, 0)

/-- `timer_write` with its array `kbuf`, whatever the stack held there. -/
def timerWriteIn (cfg : Config) (now : ℕ) (d : Driver) (kbuf : Buffer 128) (buf : UserBuf)
    (alloc : Bool) : Except Fault (Option (Driver × ℤ)) :=
  if buf.bytes.length > 128 then .ok (some (d, -EINVAL))
  else if ¬ buf.mapped then .ok (some (d, -EFAULT))
  else
    ((kbuf.overwrite 0 buf.bytes).store buf.bytes.length 0).bind fun kbuf =>
      (d.parseTimerInputIn cfg now kbuf alloc).map fun r => r.map (returned buf)

end Driver

/-- The write stays inside `kbuf`, hands no NULL to a string function, and ends with the count or
a negative error. -/
structure WriteTotal (cfg : Config) (now : ℕ) (d : Driver) (kbuf : Buffer 128) (buf : UserBuf)
    (alloc : Bool) : Prop where
  inside : d.timerWriteIn cfg now kbuf buf alloc ≠ .error .outside
  notNull : d.timerWriteIn cfg now kbuf buf alloc ≠ .error .null
  ends : ∃ d' r, d.timerWriteIn cfg now kbuf buf alloc = .ok (some (d', r)) ∧
    (r = buf.bytes.length ∨ r < 0)

section Parse
variable (cfg : Config) (now : ℕ) (d : Driver) (alloc : Bool)

/-- The outcome of a request in the checked parser: only the missing number is a fault. -/
def Driver.performIn (req : Request) : Except Fault (Option (Driver × ℤ)) :=
  match req with
  | .nullNumber => .error .null
  | req => .ok (d.perform cfg now alloc req)

theorem performIn_eq (req : Request) (h : req ≠ .nullNumber) :
    d.performIn cfg now alloc req = .ok (d.perform cfg now alloc req) := by
  cases req with
  | nullNumber => exact absurd rfl h
  | _ => rfl

theorem parseControlInputIn_eq (kbuf : Buffer 128) (input : ℕ) (h : 0 ∈ kbuf.bytes.drop input) :
    d.parseControlInputIn kbuf input alloc =
      d.performIn cfg now alloc (controlRequest (cstr (kbuf.bytes.drop input))) := by
  obtain ⟨cursor, kbuf', hsep, htoken, hrest, hterm⟩ := kbuf.strsepAt_eq 61 input h
  unfold Driver.parseControlInputIn controlRequest
  rw [hsep]
  simp only [Except.bind, htoken, hrest, reduceCtorEq, if_false]
  split_ifs with hcount
  · cases cursor with
    | none => rfl
    | some j =>
      rw [kbuf'.stringAt_eq j (hterm j rfl)]
      simp only [Except.map, Option.map_some]
      cases kstrtol (cstr (kbuf'.bytes.drop j)) <;> rfl
  · rfl

theorem parseTimerInputIn_eq (kbuf : Buffer 128) (h : 0 ∈ kbuf.bytes) :
    d.parseTimerInputIn cfg now kbuf alloc =
      d.performIn cfg now alloc (if (cstr kbuf.bytes).head? = some 94 then
        controlRequest ((cstr kbuf.bytes).drop 1) else timerRequest (cstr kbuf.bytes)) := by
  obtain ⟨c, rest, hbytes⟩ : ∃ c rest, kbuf.bytes = c :: rest := List.exists_cons_of_length_pos
    (by rw [kbuf.length_eq]; decide)
  have hload : kbuf.load 0 = .ok c := by
    rw [Buffer.load, hbytes]
    rfl
  have hhead : (cstr kbuf.bytes).head? = some 94 ↔ c = 94 := by
    rw [hbytes, cstr_cons]
    split_ifs with hc
    · simp [hc]
    · simp
  unfold Driver.parseTimerInputIn
  simp only [hload, Except.bind, hhead]
  split_ifs with hc
  · -- behind the `^` the string goes on, up to the same NUL
    have hdrop : kbuf.bytes.drop 1 = rest := by
      rw [hbytes]
      rfl
    have hrest : 0 ∈ rest := by
      rw [hbytes, hc] at h
      exact (List.mem_cons.mp h).resolve_left (by decide)
    have htail : (cstr kbuf.bytes).drop 1 = cstr rest := by
      rw [hbytes, cstr_cons, if_neg (by rw [hc]; decide)]
      rfl
    rw [parseControlInputIn_eq cfg now d alloc kbuf 1 (by rw [hdrop]; exact hrest), hdrop, htail]
  · obtain ⟨cursor, kbuf', hsep, htoken, hrest, hterm⟩ := kbuf.strsepAt_eq 32 0 h
    rw [List.drop_zero] at htoken hrest
    unfold timerRequest
    rw [hsep]
    simp only [htoken, hrest, reduceCtorEq, if_false]
    cases kstrtol (strsep 32 (cstr kbuf.bytes)).1 with
    | error e => rfl
    | ok seconds =>
      cases cursor with
      | none => rfl
      | some j =>
        obtain ⟨cursor2, kbuf2, hsep2, hmessage, -, -⟩ := kbuf'.strsepAt_eq 10 j (hterm j rfl)
        simp only [hsep2, hmessage, reduceCtorEq, if_false]
        rfl

/-- Below 128 bytes the NUL is stored behind the command. -/
theorem store_kbuf (kbuf : Buffer 128) (bytes : List Byte) (h : bytes.length ≤ 127) :
    ∃ kbuf', (kbuf.overwrite 0 bytes).store bytes.length 0 = .ok kbuf' ∧ 0 ∈ kbuf'.bytes ∧
      cstr kbuf'.bytes = cstr (bytes ++ [0]) := by
  have hlen : bytes.length < 128 := by omega
  have hbytes : ((kbuf.overwrite 0 bytes).set bytes.length 0).bytes =
      (bytes ++ [0]) ++ kbuf.bytes.drop (bytes.length+1) := by
    have hin : bytes.length < kbuf.bytes.length := by
      rw [kbuf.length_eq]
      exact hlen
    have hdrop : kbuf.bytes.drop bytes.length =
        kbuf.bytes[bytes.length] :: kbuf.bytes.drop (bytes.length+1) := List.drop_eq_getElem_cons hin
    rw [Buffer.set_bytes, Buffer.overwrite_zero _ _ (by omega), List.set_append_right _ _ (le_refl _),
      Nat.sub_self, hdrop, List.append_assoc]
    rfl
  refine ⟨_, if_pos hlen, ?_, ?_⟩
  · rw [hbytes]
    simp
  · rw [hbytes, cstr_append_of_mem _ _ (by simp)]

/-- A mapped write of at most 127 bytes does what the write does, apart from the missing
number. -/
theorem timerWriteIn_eq (kbuf : Buffer 128) (buf : UserBuf) (hl : buf.bytes.length ≤ 127)
    (hm : buf.mapped = true) :
    d.timerWriteIn cfg now kbuf buf alloc =
      (d.performIn cfg now alloc (requestOf buf)).map fun r => r.map (returned buf) := by
  obtain ⟨kbuf', hstore, hz, hcstr⟩ := store_kbuf kbuf buf.bytes hl
  have hlen : ¬ buf.bytes.length > 128 := by omega
  simp only [Driver.timerWriteIn, requestOf, if_neg hlen, hm, not_true_eq_false, if_false, hstore,
    Except.bind, parseTimerInputIn_eq cfg now d alloc kbuf' hz, hcstr]

/-- Inside `kbuf` the checked write is `timer_write`. -/
theorem timerWriteIn_timerWrite (kbuf : Buffer 128) (buf : UserBuf) (hl : buf.bytes.length ≤ 127)
    (hm : buf.mapped = true) (hreq : requestOf buf ≠ .nullNumber) :
    d.timerWriteIn cfg now kbuf buf alloc = .ok (d.timerWrite cfg now buf alloc) := by
  rw [timerWriteIn_eq cfg now d alloc kbuf buf hl hm, performIn_eq cfg now d alloc _ hreq,
    timerWrite_eq]
  rfl

end Parse

section Total
variable (cfg : Config) (now : ℕ) (d : Driver)

/-- The command that hands NULL to `kstrtol`. -/
theorem requestOf_nullNumber_iff (buf : UserBuf) (hl : buf.bytes.length ≤ 128)
    (hm : buf.mapped = true) :
    requestOf buf = .nullNumber ↔ cstr (buf.bytes ++ [0]) = ascii "^COUNT" := by
  have hlen : ¬ buf.bytes.length > 128 := by omega
  have htimer (input : List Byte) : timerRequest input ≠ .nullNumber := by
    unfold timerRequest
    split
    · exact fun h => by cases h
    · split <;> exact fun h => by cases h
  have hcontrol (input : List Byte) : controlRequest input = .nullNumber ↔ input = ascii "COUNT" := by
    unfold controlRequest
    constructor
    · intro h
      split_ifs at h with hcount
      split at h
      · rename_i hnone
        rw [← hcount, strsep_none 61 input hnone]
      · split at h <;> cases h
    · rintro rfl
      rw [strsep_of_not_mem 61 (ascii "COUNT") (by decide), if_pos rfl]
  rw [requestOf, if_neg hlen, if_neg (by simp [hm])]
  cases hc : cstr (buf.bytes ++ [0]) with
  | nil => exact ⟨fun h => absurd h (by simpa using htimer []), fun h => by cases h⟩
  | cons c input =>
    have hascii : ascii "^COUNT" = 94 :: ascii "COUNT" := rfl
    simp only [List.head?_cons, Option.some.injEq, List.drop_succ_cons, List.drop_zero, hascii,
      List.cons.injEq]
    split_ifs with h94
    · simp [hcontrol, h94]
    · simp [htimer, h94]

/-- What a run whose allocations succeed keeps: there is a table, and every active slot has its
message. -/
structure Whole (d : Driver) : Prop where
  table : d.gTimers ≠ none
  message (t i : ℕ) (s : MsgTimer) : d.slot t i = some s → s.Active → s.message ≠ .null

theorem effect_whole (d' : Driver) (req : Request) (r : ℤ) (h : Whole d)
    (he : Effect cfg now d true req d' r) : Whole d' := by
  cases he with
  | malformed e => exact h
  | noTable n ha hsize => cases ha
  | newTable n k ha hk hsize =>
    refine ⟨by simp [Driver.withTable], ?_⟩
    intro t i s hs hact
    rcases withTable_slot d n k t i s hs with ⟨-, -, rfl⟩ | ⟨-, hold⟩
    · exact absurd hact freshSlot_idle.1
    · exact h.message t i s hold hact
  | full seconds m hf => exact h
  | unfilled seconds m t i s ha hf hc => cases ha
  | filled seconds m t i s r ha hf hc hr =>
    refine ⟨h.table, ?_⟩
    intro t' i' s' hs' hact
    rcases stored_cases d _ t i _ (stores_filled cfg now d t i s m hc seconds).slot t' i' s' hs'
      with ⟨-, rfl⟩ | ⟨-, hold⟩
    · exact fun hnull => by cases hnull
    · exact h.message t' i' s' hold hact

theorem step_whole (s s' : State) (e : Event) (h : Whole s.driver) (hg : Allocates s e)
    (hs : step cfg s e = some s') : Whole s'.driver := by
  rcases step_cases cfg s s' e hs with
    ⟨ticks, -, heq⟩ | ⟨buf, alloc, r, rfl, he⟩ | ⟨t, i, x, -, -, -, he⟩
  · rw [heq]
    exact h
  · have halloc : alloc = true := hg
    subst halloc
    exact effect_whole cfg s.now _ _ _ r h he
  · obtain ⟨x0, -, -, hslots, -, htable, -, -⟩ := expire_cases _ _ t i he
    refine ⟨by rw [htable]; exact h.table, ?_⟩
    intro t' i' s0 hs0 hact
    rw [hslots] at hs0
    split_ifs at hs0
    · obtain rfl := Option.some.inj hs0
      cases hact
    · exact h.message t' i' s0 hs0 hact

theorem whole_reach (load : ℕ) (s : State)
    (h : Reach (step cfg) Allocates (loaded load true) s) : Whole s.driver := by
  refine reach_invariant (I := fun s => Whole s.driver)
    (fun s e t hi hg hs => step_whole cfg s t e hi hg hs) h ?_
  constructor
  · have htable : (loaded load true).driver.gTimers = some 0 := rfl
    simp [htable]
  · intro t i x hx hact
    exact absurd hact (init_idle true t i x hx)

/-- With memory for everything a request is carried out unless it is a resize whose size wraps. -/
theorem perform_defined_iff (hinv : Inv d) (hw : Whole d) (buf : UserBuf)
    (hreq : requestOf buf ≠ .nullNumber) :
    d.perform cfg now true (requestOf buf) ≠ none ↔
      ∀ n, requestOf buf = .resize n → 0 ≤ n → n*sizeofMsgTimer < 2^32 := by
  cases hr : requestOf buf with
  | nullNumber => exact absurd hr hreq
  | malformed e => simp [Driver.perform]
  | resize n =>
    have hsize : kmallocSize n < 2^32 := Nat.mod_lt _ (by decide)
    have hres : (∀ n', Request.resize n = .resize n' → 0 ≤ n' → n'*sizeofMsgTimer < 2^32) ↔
        (0 ≤ n → n*sizeofMsgTimer < 2^32) :=
      ⟨fun h => h n rfl, fun h n' hn' => Request.resize.inj hn' ▸ h⟩
    rw [hres, Driver.perform, createTimers_got d n true (Or.inl rfl)]
    have hneg (hn : n < 0) : n*sizeofMsgTimer < 0 := by
      rw [sizeofMsgTimer]
      omega
    split_ifs with hlt
    · refine ⟨fun h => absurd rfl h, fun h => ?_⟩
      have h0 : 0 ≤ n := by
        by_contra hn
        have := hneg (not_le.mp hn)
        omega
      rw [kmallocSize_eq n h0 (h h0)] at hlt
      exact absurd hlt (lt_irrefl _)
    · refine ⟨fun _ _ => ?_, fun _ => by simp⟩
      omega
  | set seconds m =>
    have hi : Intact d := ⟨fun _ => hw.table, fun t i s _ _ => hw.message t i s⟩
    obtain ⟨d', r, hwrite⟩ := set_write_defined cfg now d buf true hinv hi seconds m hr
    rw [timerWrite_eq, hr] at hwrite
    obtain ⟨q, hq, -⟩ := Option.map_eq_some_iff.mp hwrite
    simp [hq]

/-- A checked write ends as the claim wants exactly when its request is carried out. -/
theorem ends_iff (buf : UserBuf) (req : Request) :
    (∃ d' r, (d.performIn cfg now true req).map (fun r => r.map (returned buf)) =
        .ok (some (d', r)) ∧ (r = buf.bytes.length ∨ r < 0)) ↔
      req ≠ .nullNumber ∧ d.perform cfg now true req ≠ none := by
  by_cases hnull : req = .nullNumber
  · subst hnull
    refine ⟨fun h => ?_, fun h => absurd rfl h.1⟩
    obtain ⟨d', r, h, -⟩ := h
    cases h
  · rw [performIn_eq cfg now d true req hnull]
    cases d.perform cfg now true req with
    | none =>
      refine ⟨fun h => ?_, fun h => absurd rfl h.2⟩
      obtain ⟨d', r, h, -⟩ := h
      cases h
    | some q =>
      refine ⟨fun _ => ⟨hnull, by simp⟩, fun _ => ⟨q.1, (returned buf q).2, rfl, ?_⟩⟩
      unfold returned
      split_ifs with hneg
      · exact Or.inr hneg
      · exact Or.inl rfl

end Total

/-- After a run whose allocations succeed, an accepted write stays in `kbuf`, hands on no NULL and
ends with the count or an error if and only if its bytes cannot be copied, or it has at most 127
bytes and is neither `^COUNT` without a number nor a resize whose size wraps. -/
theorem write_total_iff (cfg : Config) (load : ℕ) (s : State)
    (h : Reach (step cfg) Allocates (loaded load true) s) (kbuf : Buffer 128) (buf : UserBuf)
    (hl : buf.bytes.length ≤ 128) :
    WriteTotal cfg s.now s.driver kbuf buf true ↔
      buf.mapped = false ∨ (buf.bytes.length ≤ 127 ∧ cstr (buf.bytes ++ [0]) ≠ ascii "^COUNT" ∧
        ∀ n, requestOf buf = .resize n → 0 ≤ n → n*sizeofMsgTimer < 2^32) := by
  have hinv := inv_reach cfg load true s (reach_weaken h)
  have hwhole := whole_reach cfg load s h
  have htotal : WriteTotal cfg s.now s.driver kbuf buf true ↔
      ∃ d' r, s.driver.timerWriteIn cfg s.now kbuf buf true = .ok (some (d', r)) ∧
        (r = buf.bytes.length ∨ r < 0) := by
    refine ⟨WriteTotal.ends, fun hends => ?_⟩
    obtain ⟨d', r, hw, -⟩ := id hends
    exact ⟨by simp [hw], by simp [hw], hends⟩
  have hlen : ¬ buf.bytes.length > 128 := by omega
  rw [htotal]
  by_cases hm : buf.mapped = true
  · by_cases hl' : buf.bytes.length ≤ 127
    · rw [timerWriteIn_eq cfg s.now s.driver true kbuf buf hl' hm, ends_iff]
      constructor
      · rintro ⟨hnull, hdef⟩
        exact Or.inr ⟨hl', fun h => hnull ((requestOf_nullNumber_iff buf hl hm).mpr h),
          (perform_defined_iff cfg s.now s.driver hinv hwhole buf hnull).mp hdef⟩
      · rintro (h | ⟨-, hcount, hsize⟩)
        · rw [hm] at h
          cases h
        · have hnull := fun h => hcount ((requestOf_nullNumber_iff buf hl hm).mp h)
          exact ⟨hnull, (perform_defined_iff cfg s.now s.driver hinv hwhole buf hnull).mpr hsize⟩
    · -- the NUL of 128 bytes is stored behind the array
      have hout : s.driver.timerWriteIn cfg s.now kbuf buf true = .error .outside := by
        rw [Driver.timerWriteIn, if_neg hlen, if_neg (by simp [hm]), Buffer.store,
          if_neg (by omega)]
        rfl
      rw [hout, hm]
      simp [hl']
  · have hfault : s.driver.timerWriteIn cfg s.now kbuf buf true =
        .ok (some (s.driver, -EFAULT)) := by
      rw [Driver.timerWriteIn, if_neg hlen, if_pos hm]
    rw [hfault]
    refine ⟨fun _ => Or.inl (by simpa using hm), fun _ => ⟨_, _, rfl, Or.inr (by decide)⟩⟩

set_option maxRecDepth 8192 in
/-- A number without a message, while a timer runs. -/
theorem write_total_iff_run : ∃ s,
    Reach (step sampleConfig) Allocates (loaded 0 true) s ∧ s.driver.nextBlock = 2 ∧
      WriteTotal sampleConfig s.now s.driver (Buffer.zero 128) ⟨ascii "300", true⟩ true := by
  obtain ⟨s, hs, hp⟩ := exists_reach_of_run (step sampleConfig) (loaded 0 true)
    allocates_of_check [sampleWrite "300 dakota\n" true] (fun s => s.driver.nextBlock = 2)
    (by decide)
  refine ⟨s, hs, of_decide_eq_true hp,
    (write_total_iff sampleConfig 0 s hs _ ⟨ascii "300", true⟩ (by decide)).mpr ?_⟩
  refine Or.inr ⟨by decide, by decide, ?_⟩
  intro n hn
  have hrequest : requestOf ⟨ascii "300", true⟩ = .malformed (-EINVAL) := rfl
  rw [hrequest] at hn
  cases hn

set_option maxRecDepth 8192 in
/-- `^COUNT` has no `=`, so the number it is asked for is NULL. -/
theorem count_hands_null : ¬ ∀ (cfg : Config) (load : ℕ) (s : State),
    Reach (step cfg) Allocates (loaded load true) s → ∀ (kbuf : Buffer 128) (buf : UserBuf),
      buf.bytes.length ≤ 128 → WriteTotal cfg s.now s.driver kbuf buf true := by
  intro hall
  have hwrite := hall sampleConfig 0 (loaded 0 true) (reach_refl _) (Buffer.zero 128)
    ⟨ascii "^COUNT", true⟩ (by decide)
  exact hwrite.notNull rfl

end DevKota.Lab2
