import DevKota.Lab2Checked
import DevKota.Lab2Table

/-! Which runs of the lab2 driver stay free of faults. -/
namespace DevKota.Lab2
open CString Kernel Runs

/-- The request gets the memory it needs: a block for the table when timers are asked for and the
size is not zero, one for the message when it has a slot. -/
def GrantedRequest (d : Driver) (alloc : Bool) : Request → Prop
  | .resize n => alloc = true ∨ kmallocSize n = 0 ∨ n ≤ 0
  | .set _ m => alloc = true ∨ ∀ i : ℕ, d.findAvailableTimer m ≠ some (i:ℤ)
  | _ => True

def Granted (s : State) : Event → Prop
  | .write buf alloc => GrantedRequest s.driver alloc (requestOf buf)
  | _ => True

/-- The text is refused unread, or it leaves room for its NUL, gives `COUNT` a number and asks for
no table whose size wraps. -/
def SoundWrite (buf : UserBuf) (alloc : Bool) : Prop :=
  128 < buf.bytes.length ∨ buf.mapped = false ∨
    (buf.bytes.length ≤ 127 ∧ cstr (buf.bytes ++ [0]) ≠ ascii "^COUNT" ∧
      ∀ n, requestOf buf = .resize n → alloc = true ∨ kmallocSize n = 0 → 0 ≤ n →
        n*sizeofMsgTimer < 2^32)

/-- A timer only fires when it is due; that is the kernel's part. -/
def Sound (s : State) : Event → Prop
  | .tick _ => True
  | .write buf alloc => SoundWrite buf alloc
  | .fire t i => ∃ x, s.driver.slot t i = some x ∧ x.timer.Expired s.now

/-- One event with the accesses of a write checked, `kbuf` holding what was on the stack. A fault
has no result. -/
def stepIn (cfg : Config) (s : State) : Event × Buffer 128 → Option State
  | (.write buf alloc, kbuf) =>
    match s.driver.timerWriteIn cfg s.now kbuf buf alloc with
    | .ok r => r.map fun r => { s with driver := r.1 }
    | .error _ => none
  | (.tick ticks, _) => step cfg s (.tick ticks)
  | (.fire t i, _) => step cfg s (.fire t i)

section Intact
variable (cfg : Config) (now : ℕ) (d d' : Driver)

theorem withTable_intact (n : ℤ) (k : ℕ) : Intact (d.withTable n k) := by
  constructor
  · intro _ hnone
    cases hnone
  · intro t i s ht _ hs hact
    -- the current table is the new one, whose slots are free
    obtain rfl := Option.some.inj ht
    rcases withTable_slot d n k _ i s hs with ⟨-, -, rfl⟩ | ⟨hne, -⟩
    · exact absurd hact freshSlot_idle.1
    · exact absurd rfl hne

theorem filled_intact (h : Intact d) (t i : ℕ) (s : MsgTimer) (seconds : ℤ) (m : List Byte)
    (hc : Chosen d t i s m) :
    Intact { d.setSlot t i (s.filled cfg now d.nextBlock seconds m) with
      nextBlock := d.nextBlock + 1 } := by
  refine ⟨h.table, ?_⟩
  intro t' i' s' ht' hi' hs' hact
  have hslot := (stores_filled cfg now d t i s m hc seconds).slot
  rcases stored_cases d _ t i _ hslot t' i' s' hs' with ⟨-, rfl⟩ | ⟨-, hold⟩
  · intro hnull
    cases hnull
  · exact h.message t' i' s' ht' hi' hold hact

/-- A request keeps the driver intact exactly when it gets its memory. -/
theorem effect_intact_iff (alloc : Bool) (req : Request) (r : ℤ) (h : Intact d)
    (he : Effect cfg now d alloc req d' r) : Intact d' ↔ GrantedRequest d alloc req := by
  cases he with
  | malformed e => exact ⟨fun _ => trivial, fun _ => h⟩
  | noTable n ha hsize =>
    constructor
    · intro hi
      right; right
      -- timers without a table
      by_contra hn
      exact hi.table (not_le.mp hn) rfl
    · intro hg
      rcases hg with hg | hzero | hn
      · rw [ha] at hg
        cases hg
      · exact absurd hzero hsize
      · constructor
        · intro hpos
          exact absurd hn (not_le.mpr hpos)
        · intro t i s ht
          cases ht
  | newTable n k ha hk hsize =>
    exact ⟨fun _ => ha.imp_right Or.inl, fun _ => withTable_intact d n k⟩
  | full seconds m hf =>
    refine ⟨fun _ => Or.inr fun i hi => ?_, fun _ => h⟩
    rw [hf, ENOMEM] at hi
    have := Option.some.inj hi
    omega
  | unfilled seconds m t i s ha hf hc =>
    have hslot := (stores_unfilled d t i s m hc).slot t i
    rw [if_pos ⟨rfl, rfl⟩] at hslot
    constructor
    · intro hi
      exact absurd rfl (hi.message t i s.unfilled hc.table hc.index hslot rfl)
    · intro hg
      rcases hg with hg | hg
      · rw [ha] at hg
        cases hg
      · exact absurd hf (hg i)
  | filled seconds m t i s r ha hf hc hr =>
    exact ⟨fun _ => Or.inl ha, fun _ => filled_intact cfg now d h t i s seconds m hc⟩

theorem expire_intact (t i : ℕ) (h : Intact d) (he : d.expire t i = some d') : Intact d' := by
  obtain ⟨s, -, hs⟩ := expire_stores d d' t i he
  refine ⟨fun hpos => ?_, ?_⟩
  · rw [hs.gTimers]
    apply h.table
    rwa [hs.gNumTimers] at hpos
  · intro t' i' s' ht' hi' hs' hact
    rw [hs.gTimers] at ht'
    rw [hs.gNumTimers] at hi'
    rcases stored_cases d d' t i s.fired hs.slot t' i' s' hs' with ⟨-, rfl⟩ | ⟨-, hold⟩
    · exact absurd hact (fired_idle s)
    · exact h.message t' i' s' ht' hi' hold hact

theorem step_intact_iff (s s' : State) (e : Event) (h : Intact s.driver)
    (hs : step cfg s e = some s') : Intact s'.driver ↔ Granted s e := by
  rcases step_cases cfg s s' e hs with ⟨ticks, rfl, heq⟩ | ⟨buf, alloc, r, rfl, he⟩ |
    ⟨t, i, x, rfl, -, -, he⟩
  · rw [heq]
    exact ⟨fun _ => trivial, fun _ => h⟩
  · exact effect_intact_iff cfg s.now _ _ alloc _ r h he
  · exact ⟨fun _ => trivial, fun _ => expire_intact _ _ t i h he⟩

theorem loaded_intact_iff (load : ℕ) (alloc : Bool) :
    Intact (loaded load alloc).driver ↔ alloc = true := by
  cases alloc with
  | false =>
    constructor
    · intro h
      exact absurd rfl (h.table (show (0:ℤ) < 1 by decide))
    · intro h
      cases h
  | true => exact ⟨fun _ => rfl, fun _ => withTable_intact _ 1 1⟩

end Intact

section Faults
variable (cfg : Config) (now : ℕ) (d : Driver) (buf : UserBuf) (alloc : Bool)

theorem createTimers_defined_iff (n : ℤ) (hgot : alloc = true ∨ kmallocSize n = 0) :
    d.createTimers n alloc ≠ none ↔ (0 ≤ n → n*sizeofMsgTimer < 2^32) := by
  have hsize : kmallocSize n < 2^32 := Nat.mod_lt _ (by decide)
  rw [createTimers_got d n alloc hgot]
  constructor
  · intro hdef h0
    split_ifs at hdef with hlt
    · exact absurd rfl hdef
    · omega
  · intro hfits
    apply ne_of_eq_of_ne (if_neg _) (Option.some_ne_none _)
    -- a negative count asks for less than it gets
    by_cases h0 : 0 ≤ n
    · rw [kmallocSize_eq n h0 (hfits h0)]
      exact lt_irrefl _
    · rw [sizeofMsgTimer]
      omega

/-- A request that was parsed is carried out, unless it is a resize whose size wraps. -/
theorem timerWrite_defined_iff (hinv : Inv d) (hi : Intact d) (hnull : requestOf buf ≠ .nullNumber) :
    d.timerWrite cfg now buf alloc ≠ none ↔
      ∀ n, requestOf buf = .resize n → alloc = true ∨ kmallocSize n = 0 → 0 ≤ n →
        n*sizeofMsgTimer < 2^32 := by
  cases hr : requestOf buf with
  | nullNumber => exact absurd hr hnull
  | malformed e => simp [timerWrite_eq, hr, Driver.perform]
  | resize n =>
    rw [timerWrite_eq, hr, Driver.perform, Ne, Option.map_eq_none_iff]
    by_cases hgot : alloc = true ∨ kmallocSize n = 0
    · rw [← Ne, createTimers_defined_iff d alloc n hgot]
      constructor
      · intro hfits n' hn' _
        exact Request.resize.inj hn' ▸ hfits
      · intro hfits
        exact hfits n rfl hgot
    · have hrefused := createTimers_refused d n alloc (by simpa using hgot)
      refine ⟨fun _ n' hn' hgot' => ?_, fun _ => by simp [hrefused]⟩
      obtain rfl := Request.resize.inj hn'
      exact absurd hgot' hgot
  | set seconds m =>
    obtain ⟨d', r, hwrite⟩ := set_write_defined cfg now d buf alloc hinv hi seconds m hr
    simp [hwrite]

/-- A sound write does the same with its accesses checked, and comes to its end. -/
theorem soundWrite_defined (kbuf : Buffer 128) (hinv : Inv d) (hi : Intact d)
    (h : SoundWrite buf alloc) :
    ∃ r, d.timerWrite cfg now buf alloc = some r ∧
      d.timerWriteIn cfg now kbuf buf alloc = .ok (some r) := by
  unfold SoundWrite at h
  -- refused for its length, read, refused for its address
  by_cases hlen : 128 < buf.bytes.length
  · refine ⟨(d, -EINVAL), ?_, ?_⟩
    · rw [Driver.timerWrite, if_pos hlen]
    · rw [Driver.timerWriteIn, if_pos hlen]
  · by_cases hm : buf.mapped = true
    · rcases h with h | h | ⟨hl, hcount, hfits⟩
      · exact absurd h hlen
      · rw [hm] at h
        cases h
      · have hnull := fun h => hcount ((requestOf_nullNumber_iff buf (by omega) hm).mp h)
        obtain ⟨r, hr⟩ := Option.ne_none_iff_exists'.mp
          ((timerWrite_defined_iff cfg now d buf alloc hinv hi hnull).mpr hfits)
        refine ⟨r, hr, ?_⟩
        rw [timerWriteIn_timerWrite cfg now d alloc kbuf buf hl hm hnull, hr]
    · refine ⟨(d, -EFAULT), ?_, ?_⟩
      · rw [Driver.timerWrite, if_neg hlen, if_pos hm]
      · rw [Driver.timerWriteIn, if_neg hlen, if_pos hm]

/-- The three ways to fault: the NUL behind `kbuf`, the number that is NULL, the slots behind
a block that is too small. -/
theorem unsoundWrite_faults (kbuf : Buffer 128) (hinv : Inv d) (hi : Intact d)
    (h : ¬ SoundWrite buf alloc) :
    d.timerWriteIn cfg now kbuf buf alloc = .error .outside ∨
      d.timerWriteIn cfg now kbuf buf alloc = .error .null ∨
        d.timerWriteIn cfg now kbuf buf alloc = .ok none := by
  unfold SoundWrite at h
  push Not at h
  obtain ⟨hlen, hm, hrest⟩ := h
  have hmapped : buf.mapped = true := by simpa using hm
  by_cases hl : buf.bytes.length ≤ 127
  · by_cases hnull : requestOf buf = .nullNumber
    · right; left
      rw [timerWriteIn_eq cfg now d alloc kbuf buf hl hmapped, hnull]
      rfl
    · right; right
      have hcount := fun h => hnull ((requestOf_nullNumber_iff buf hlen hmapped).mpr h)
      obtain ⟨n, hn, hgot, h0, hbig⟩ := hrest hl hcount
      rw [timerWriteIn_timerWrite cfg now d alloc kbuf buf hl hmapped hnull]
      apply congrArg
      by_contra hdef
      have hfits := (timerWrite_defined_iff cfg now d buf alloc hinv hi hnull).mp hdef n hn hgot h0
      omega
  · left
    rw [Driver.timerWriteIn, if_neg (by omega), if_neg (by simp [hmapped]), Buffer.store,
      if_neg (by omega)]
    rfl

end Faults

section Steps
variable (cfg : Config) (s : State) (e : Event × Buffer 128)
  (hinv : Inv s.driver) (hi : Intact s.driver)
include hinv hi

theorem sound_step (h : Sound s e.1) : ∃ t, step cfg s e.1 = some t ∧ stepIn cfg s e = some t := by
  obtain ⟨e, kbuf⟩ := e
  cases e with
  | tick ticks => exact ⟨_, rfl, rfl⟩
  | write buf alloc =>
    obtain ⟨r, hr, hin⟩ := soundWrite_defined cfg s.now s.driver buf alloc kbuf hinv hi h
    refine ⟨{ s with driver := r.1 }, ?_, ?_⟩
    · simp only [step, hr, Option.map_some]
    · simp only [stepIn, hin, Option.map_some]
  | fire t i =>
    obtain ⟨x, hx, hdue⟩ := h
    obtain ⟨d', text, he, -, -⟩ := expire_defined s.driver hinv t i x hx hdue.1
    have hfire : step cfg s (.fire t i) = some { s with driver := d' } := by
      rw [step, if_pos (by simpa [hx] using hdue), he, Option.map_some]
    exact ⟨_, hfire, hfire⟩

theorem unsound_step (h : ¬ Sound s e.1) : stepIn cfg s e = none := by
  obtain ⟨e, kbuf⟩ := e
  cases e with
  | tick ticks => exact absurd trivial h
  | write buf alloc =>
    rcases unsoundWrite_faults cfg s.now s.driver buf alloc kbuf hinv hi h with hf | hf | hf
    · simp only [stepIn, hf]
    · simp only [stepIn, hf]
    · simp only [stepIn, hf, Option.map_none]
  | fire t i =>
    apply if_neg
    intro hdue
    obtain ⟨x, hx, hdue⟩ := (Option.any_eq_true _ _).mp hdue
    exact h ⟨x, hx, of_decide_eq_true hdue⟩

end Steps

/-- In every run the search, the listing and the room check stay usable after every step if and
only if the load and all requests get the memory they need. The byte that a write of 128 bytes
stores behind `kbuf` is left out: it lies on the stack, and no table does. -/
theorem usable_iff_granted (cfg : Config) (load : ℕ) (loadAlloc : Bool) (es : List Event) (s : State)
    (h : run (step cfg) (fun _ _ => true) (loaded load loadAlloc) es = some s) :
    Always (step cfg) (fun s => Safe cfg s.driver) (loaded load loadAlloc) es ↔
      loadAlloc = true ∧ Meets (step cfg) Granted (loaded load loadAlloc) es := by
  have hinv := inv_init loadAlloc
  have hfirst : Safe cfg (loaded load loadAlloc).driver ↔ loadAlloc = true :=
    (safe_iff_intact cfg _ hinv).trans (loaded_intact_iff load loadAlloc)
  have hstep (s : State) (e : Event) (t : State) (hi : Inv s.driver) (hp : Safe cfg s.driver)
      (_ : true = true) (hs : step cfg s e = some t) : Safe cfg t.driver ↔ Granted s e := by
    rw [safe_iff_intact cfg _ (step_inv cfg s t e hi hs)]
    exact step_intact_iff cfg s t e ((safe_iff_intact cfg _ hi).mp hp) hs
  have hrun (hp : Safe cfg (loaded load loadAlloc).driver) :=
    always_iff_meets (I := fun s => Inv s.driver)
      (fun s e t hi _ hs => step_inv cfg s t e hi hs) hstep h hinv hp
  constructor
  · intro ha
    have hp := always_first ha
    exact ⟨hfirst.mp hp, (hrun hp).mp ha⟩
  · intro hm
    exact (hrun (hfirst.mpr hm.1)).mpr hm.2

def grantedRequestCheck (d : Driver) (alloc : Bool) : Request → Bool
  | .resize n => alloc || (kmallocSize n = 0 || n ≤ 0)
  | .set _ m => alloc || d.findAvailableTimer m = some (-ENOMEM)
  | _ => true

theorem grantedRequest_of_check (d : Driver) (alloc : Bool) (req : Request)
    (h : grantedRequestCheck d alloc req = true) : GrantedRequest d alloc req := by
  cases req with
  | malformed e => trivial
  | nullNumber => trivial
  | resize n =>
    apply (Bool.or_eq_true_iff.mp h).imp_right
    intro hrest
    exact (Bool.or_eq_true_iff.mp hrest).imp of_decide_eq_true of_decide_eq_true
  | set seconds m =>
    apply (Bool.or_eq_true_iff.mp h).imp_right
    intro hfull i hi
    -- a full table is answered with a negative number
    rw [of_decide_eq_true hfull, ENOMEM] at hi
    have := Option.some.inj hi
    omega

def grantedCheck (s : State) : Event → Bool
  | .write buf alloc => grantedRequestCheck s.driver alloc (requestOf buf)
  | _ => true

theorem granted_of_check (s : State) (e : Event) (h : grantedCheck s e = true) : Granted s e := by
  cases e with
  | write buf alloc => exact grantedRequest_of_check s.driver alloc _ h
  | _ => trivial

def faultEvents : List Event :=
  [sampleWrite "3 ash\n" true, sampleWrite "4 oak\n" false, .tick 900, .fire 0 0,
    sampleWrite "^COUNT=-3\n" false]

set_option maxRecDepth 8192 in
/-- A message that finds the table full needs no block, and a count below zero no table. -/
theorem usable_iff_granted_run :
    Always (step sampleConfig) (fun s => Safe sampleConfig s.driver) (loaded 7 true) faultEvents := by
  obtain ⟨s, hs⟩ := Option.isSome_iff_exists.mp (show
    (run (step sampleConfig) grantedCheck (loaded 7 true) faultEvents).isSome = true by decide)
  obtain ⟨t, ht⟩ := Option.isSome_iff_exists.mp (show (run (step sampleConfig) (fun _ _ => true)
    (loaded 7 true) faultEvents).isSome = true by decide)
  exact (usable_iff_granted sampleConfig 7 true faultEvents t ht).mpr
    ⟨rfl, meets_of_run granted_of_check hs⟩

/-- In every run whose requests get the memory they need, whatever the stack holds, no write leaves
`kbuf` or follows NULL and no access leaves a table or a live block if and only if every write is
sound and every timer fires when it is due. -/
theorem faultless_iff_sound (cfg : Config) (load : ℕ) (es : List (Event × Buffer 128))
    (hg : Meets (step cfg) Granted (loaded load true) (es.map Prod.fst)) :
    (run (stepIn cfg) (fun _ _ => true) (loaded load true) es).isSome = true ↔
      Meets (step cfg) Sound (loaded load true) (es.map Prod.fst) := by
  apply run_isSome_iff_meets (I := fun s => Inv s.driver ∧ Intact s.driver) Prod.fst _ _ _ hg
  · exact ⟨inv_init true, (loaded_intact_iff load true).mpr rfl⟩
  · intro s e t hi hgs hs
    exact ⟨step_inv cfg s t e hi.1 hs, (step_intact_iff cfg s t e hi.2 hs).mpr hgs⟩
  · intro s e hi _ hok
    exact sound_step cfg s e hi.1 hi.2 hok
  · intro s e hi _ hbad
    exact unsound_step cfg s e hi.1 hi.2 hbad

set_option maxRecDepth 8192 in
theorem faultless_iff_sound_run : Meets (step sampleConfig) Sound (loaded 7 true) faultEvents := by
  obtain ⟨s, hs⟩ := Option.isSome_iff_exists.mp (show
    (run (step sampleConfig) grantedCheck (loaded 7 true) faultEvents).isSome = true by decide)
  exact (faultless_iff_sound sampleConfig 7 (faultEvents.map fun e => (e, Buffer.zero 128))
    (meets_of_run granted_of_check hs)).mp (by decide +kernel)

end DevKota.Lab2
