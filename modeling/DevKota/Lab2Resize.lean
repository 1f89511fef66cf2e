import DevKota.Lab2Failure

/-! The arithmetic of a table resize in the lab2 driver. -/
namespace DevKota.Lab2
open CString Kernel Runs

/-- The table is as large as the count says. Every index that the loops of the driver and
`set_timer` use is below the count and then lies inside the block. -/
structure Sized (d : Driver) (n : ℤ) : Prop where
  count : d.gNumTimers = n
  -- from `long` to `unsigned` and on to `int`
  converted : (BitVec.ofInt 32 n).toInt = d.gNumTimers
  nonneg : 0 ≤ n
  size : d.gNumTimers*sizeofMsgTimer ≤ kmallocSize n
  inside (i : ℕ) : (i:ℤ) < d.gNumTimers → (i+1)*sizeofMsgTimer ≤ kmallocSize n
  slot (i : ℕ) : (i:ℤ) < d.gNumTimers → ∃ t s, d.gTimers = some t ∧ d.slot t i = some s

/-- A write that asks for `n` timers runs inside the driver's memory, and if `create_timers`
returns 0 then the table has its size. -/
def ResizeSized (cfg : Config) (now : ℕ) (d : Driver) (buf : UserBuf) (n : ℤ) (alloc : Bool) :
    Prop :=
  ∃ d' r, d.createTimers n alloc = some (d', r) ∧
    d.timerWrite cfg now buf alloc = some (returned buf (d', r)) ∧ (r = 0 → Sized d' n)

section Size
variable (d : Driver) (n : ℤ)

theorem converted_count (h : -(2^31) ≤ n ∧ n < 2^31) : (BitVec.ofInt 32 n).toInt = n := by
  rw [BitVec.toInt_ofInt]
  exact Int.bmod_eq_of_le (by norm_num; omega) (by norm_num; omega)

theorem withTable_sized (h : -(2^31) ≤ n ∧ n < 2^31) (h0 : 0 ≤ n)
    (hsize : n*sizeofMsgTimer < 2^32) :
    Sized (d.withTable n (kmallocSize n / sizeofMsgTimer)) n := by
  have heq := kmallocSize_eq n h0 hsize
  have hcount : (d.withTable n (kmallocSize n / sizeofMsgTimer)).gNumTimers = n := rfl
  refine ⟨hcount, converted_count n h, h0, le_of_eq (by rw [hcount, heq]), ?_, ?_⟩
  · intro i hi
    rw [hcount] at hi
    rw [sizeofMsgTimer] at heq ⊢
    omega
  · intro i hi
    rw [hcount] at hi
    have hik : i < kmallocSize n / sizeofMsgTimer := by
      rw [sizeofMsgTimer] at heq ⊢
      omega
    refine ⟨d.tables.length, freshSlot, rfl, ?_⟩
    rw [slot_append d _ _ _ _ rfl, if_pos rfl]
    simp [hik]

end Size

section Request

theorem requestOf_resize (buf : UserBuf) (n : ℤ) (h : requestOf buf = .resize n) :
    -(2^31) ≤ n ∧ n < 2^31 := by
  have htimer (input : List Byte) : timerRequest input ≠ .resize n := by
    unfold timerRequest
    split
    · exact fun h => by cases h
    · split <;> exact fun h => by cases h
  unfold requestOf at h
  split_ifs at h
  · unfold controlRequest at h
    split_ifs at h
    split at h
    · cases h
    · split at h
      · cases h
      · rename_i hk
        obtain rfl := Request.resize.inj h
        exact kstrtol_range _ _ hk
  · exact absurd h (htimer _)

/-- The command that asks for `n` timers. -/
def countCommand (n : ℤ) : UserBuf := ⟨ascii "^COUNT=" ++ decimalInt n, true⟩

/-- Every `long` is the count of a command. -/
theorem requestOf_countCommand (n : ℤ) (h : -(2^31) ≤ n ∧ n < 2^31) :
    requestOf (countCommand n) = .resize n := by
  have hlen := decimalInt_length n h
  have hz : 0 ∉ ascii "^COUNT=" ++ decimalInt n := by
    rw [List.mem_append, not_or]
    exact ⟨by decide, not_mem_decimalInt n 0 (by decide) (by decide)⟩
  have hsep : strsep 61 (ascii "COUNT" ++ 61 :: decimalInt n) =
      (ascii "COUNT", some (decimalInt n)) := strsep_append 61 _ _ (by decide)
  have hlt : ¬ (countCommand n).bytes.length > 128 := by
    rw [countCommand, List.length_append]
    have : (ascii "^COUNT=").length = 7 := rfl
    omega
  rw [requestOf, if_neg hlt, if_neg (by simp [countCommand])]
  simp only [countCommand, cstr_append_zero _ [] hz]
  have hhead : (ascii "^COUNT=" ++ decimalInt n).head? = some 94 := rfl
  rw [if_pos hhead]
  change controlRequest (ascii "COUNT" ++ 61 :: decimalInt n) = _
  rw [controlRequest, hsep, if_pos rfl]
  simp only [kstrtol_decimalInt n h]

end Request

/-- A resize leaves a table of the right size exactly when `kmalloc` fails or the count is not
negative and its product does not wrap. -/
theorem resize_sized_iff (cfg : Config) (now : ℕ) (d : Driver) (buf : UserBuf) (n : ℤ)
    (alloc : Bool) (h : requestOf buf = .resize n) :
    ResizeSized cfg now d buf n alloc ↔
      (alloc = false ∧ kmallocSize n ≠ 0) ∨ (0 ≤ n ∧ n*sizeofMsgTimer < 2^32) := by
  have hlong := requestOf_resize buf n h
  have hwrite : d.timerWrite cfg now buf alloc = (d.createTimers n alloc).map (returned buf) := by
    rw [timerWrite_eq, h]
    rfl
  unfold ResizeSized
  rw [hwrite]
  by_cases hgot : alloc = true ∨ kmallocSize n = 0
  · rw [createTimers_got d n alloc hgot]
    constructor
    · intro hsized
      obtain ⟨d', r, hc, -, hd⟩ := hsized
      split_ifs at hc with hlt
      obtain ⟨rfl, rfl⟩ := Prod.mk.inj (Option.some.inj hc)
      have h0 := (hd rfl).nonneg
      have hsize : kmallocSize n < 2^32 := Nat.mod_lt _ (by decide)
      exact Or.inr ⟨h0, by omega⟩
    · intro hw
      have hnot : ¬ (alloc = false ∧ kmallocSize n ≠ 0) := by
        rintro ⟨hfalse, hne⟩
        rcases hgot with htrue | hzero
        · rw [htrue] at hfalse
          cases hfalse
        · exact hne hzero
      obtain ⟨h0, hsize⟩ := hw.resolve_left hnot
      rw [if_neg (by rw [kmallocSize_eq n h0 hsize]; exact lt_irrefl _)]
      exact ⟨_, _, rfl, rfl, fun _ => withTable_sized d n hlong h0 hsize⟩
  · rw [not_or, Bool.not_eq_true] at hgot
    rw [createTimers_refused d n alloc hgot]
    refine ⟨fun _ => Or.inl hgot, fun _ => ⟨_, _, rfl, rfl, ?_⟩⟩
    intro hr
    cases hr

/-- Five timers, asked for by the freshly loaded driver's first write. -/
theorem resize_sized_iff_five :
    requestOf (countCommand 5) = .resize 5 ∧
      ResizeSized sampleConfig 0 (Driver.myModuleInit true) (countCommand 5) 5 true :=
  have h : requestOf (countCommand 5) = .resize 5 := requestOf_countCommand 5 (by decide)
  ⟨h, (resize_sized_iff sampleConfig 0 _ _ 5 true h).mpr (Or.inr (by decide))⟩

/-- For 178956971 timers eight bytes are allocated. -/
theorem resize_wraps : kmallocSize 178956971 = 8 ∧
    ¬ ∀ (cfg : Config) (now : ℕ) (d : Driver) (buf : UserBuf) (n : ℤ) (alloc : Bool),
      requestOf buf = .resize n → ResizeSized cfg now d buf n alloc := by
  refine ⟨by decide, ?_⟩
  intro hall
  have hreq := requestOf_countCommand 178956971 (by decide)
  obtain ⟨d', r, hc, -⟩ := hall sampleConfig 0 (Driver.myModuleInit true) _ _ true hreq
  rw [createTimers_got _ _ _ (Or.inl rfl), if_pos (by decide)] at hc
  cases hc

end DevKota.Lab2
