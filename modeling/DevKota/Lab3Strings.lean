import DevKota.Lab3Driver

/-! What the hand-written string loops of the lab3 driver compute. -/
namespace DevKota.Lab3
open CString Kernel

/-- The scanned areas compare equal exactly when they start with the same string. -/
theorem myStrcmp_eq_zero (s t : List Byte) : myStrcmp s t = 0 ↔ cstr s = cstr t := by
  have hbyte (a b : Byte) : (a.toNat:ℤ) - b.toNat = 0 ↔ a = b := by
    rw [← UInt8.toNat_inj]
    omega
  induction s generalizing t with
  | nil =>
    cases t with
    | nil => simp [myStrcmp]
    | cons b t =>
      rw [myStrcmp, cstr_cons]
      have := hbyte b 0
      split_ifs with hb <;> simp_all [cstr]
  | cons a s ih =>
    cases t with
    | nil =>
      rw [myStrcmp, cstr_cons]
      have := hbyte a 0
      split_ifs with ha <;> simp_all [cstr]
    | cons b t =>
      rw [myStrcmp, cstr_cons, cstr_cons]
      -- equal bytes go on or end both strings, different ones decide
      by_cases hab : a = b
      · subst hab
        split_ifs with h ha ha
        · exact absurd ha h.1
        · simp [ih]
        · simp
        · exact absurd ⟨ha, rfl⟩ h
      · rw [if_neg (fun h => hab h.2), hbyte]
        split_ifs with ha hb hb <;> simp_all

theorem cstr_pad (n : ℕ) (s : List Byte) (h : 0 ∉ s) : cstr (pad n s) = s := by
  unfold pad
  cases hn : n - s.length with
  | zero => simp [h]
  | succ m => exact cstr_append_zero s (List.replicate m 0) h

theorem getD_pad (n k : ℕ) (s : List Byte) : (pad n s).getD k 0 = s.getD k 0 := by
  rw [pad, List.getD_eq_getElem?_getD, List.getD_eq_getElem?_getD]
  by_cases hk : k < s.length
  · rw [List.getElem?_append_left hk]
  · rw [List.getElem?_append_right (by omega), List.getElem?_eq_none (by omega : s.length ≤ k),
      List.getElem?_replicate]
    split_ifs <;> rfl

/-- The copy loop only sees the string at the head of its source. -/
theorem myStrcpy_cstr {σ : Type} (store : σ → ℕ → Byte → σ) (src : List Byte) (i : ℕ) (m : σ) :
    myStrcpy store src i m = myStrcpy store (cstr src) i m := by
  induction src generalizing i m with
  | nil => rfl
  | cons c src ih =>
    rw [cstr_cons]
    by_cases hc : c = 0
    · simp [myStrcpy, hc]
    · simp only [myStrcpy, hc, ne_eq, not_false_eq_true, if_true, if_false]
      exact ih _ _

/-- A copy that fits in its array writes the string and its NUL and keeps the rest. -/
theorem myStrcpy_set {n : ℕ} (s : List Byte) (hs : 0 ∉ s) (i : ℕ) (b : Buffer n)
    (h : i + s.length < n) :
    (myStrcpy Buffer.set s i b).bytes =
      b.bytes.take i ++ s ++ 0 :: b.bytes.drop (i + s.length + 1) := by
  induction s generalizing i b with
  | nil =>
    have hi : i < b.bytes.length := by rw [b.length_eq]; simpa using h
    simp only [myStrcpy, Buffer.set_bytes, List.append_nil, List.length_nil, Nat.add_zero]
    rw [List.set_eq_take_append_cons_drop, if_pos hi]
  | cons c s ih =>
    have hc : c ≠ 0 := fun hz => hs (by simp [hz])
    simp only [List.length_cons] at h
    have hi : i < b.bytes.length := by rw [b.length_eq]; omega
    -- the head is stored at `i`; the rest of the copy starts one place further
    have htake : (b.set i c).bytes.take (i+1) = b.bytes.take i ++ [c] := by
      simp [List.take_add_one, List.take_set_of_le, hi]
    have hdrop : (b.set i c).bytes.drop (i+1+s.length+1) = b.bytes.drop (i+(s.length+1)+1) := by
      rw [Buffer.set_bytes, List.drop_set_of_lt (by omega)]
      congr 1
      omega
    rw [myStrcpy, if_pos hc, ih (fun hz => hs (List.mem_cons_of_mem _ hz)) _ _ (by omega),
      htake, hdrop, List.length_cons]
    simp

/-- Copying a string of at most 127 bytes to `timer_msg` changes no other field. -/
theorem myStrcpy_storeMsg (s : List Byte) (hs : 0 ∉ s) (i : ℕ) (t : TimerInfo)
    (h : i + s.length < 128) :
    myStrcpy TimerInfo.storeMsg s i t = { t with timerMsg := myStrcpy Buffer.set s i t.timerMsg } := by
  induction s generalizing i t with
  | nil =>
    have hi : i < 128 := by simpa using h
    simp [myStrcpy, TimerInfo.storeMsg, hi]
  | cons c s ih =>
    have hc : c ≠ 0 := fun hz => hs (by simp [hz])
    simp only [List.length_cons] at h
    have hi : i < 128 := by omega
    rw [myStrcpy, if_pos hc, ih (fun hz => hs (List.mem_cons_of_mem _ hz)) _ _ (by omega),
      myStrcpy, if_pos hc]
    simp [TimerInfo.storeMsg, hi]

theorem myStrcpy_storeCommand (s : List Byte) (hs : 0 ∉ s) (i : ℕ) (t : TimerInfo)
    (h : i + s.length < 16) :
    myStrcpy TimerInfo.storeCommand s i t =
      { t with callingCommand := myStrcpy Buffer.set s i t.callingCommand } := by
  induction s generalizing i t with
  | nil =>
    have hi : i < 16 := by simpa using h
    simp [myStrcpy, TimerInfo.storeCommand, hi]
  | cons c s ih =>
    have hc : c ≠ 0 := fun hz => hs (by simp [hz])
    simp only [List.length_cons] at h
    have hi : i < 16 := by omega
    rw [myStrcpy, if_pos hc, ih (fun hz => hs (List.mem_cons_of_mem _ hz)) _ _ (by omega),
      myStrcpy, if_pos hc]
    simp [TimerInfo.storeCommand, hi]

theorem cstr_myStrcpy_set {n : ℕ} (s : List Byte) (hs : 0 ∉ s) (b : Buffer n)
    (h : s.length < n) (m : List Byte) :
    cstr ((myStrcpy Buffer.set s 0 b).bytes ++ m) = s := by
  rw [myStrcpy_set s hs 0 b (by omega)]
  simpa using cstr_append_zero s (b.bytes.drop (s.length+1) ++ m) hs

theorem zero_mem_myStrcpy_set {n : ℕ} (s : List Byte) (hs : 0 ∉ s) (b : Buffer n)
    (h : s.length < n) : 0 ∈ (myStrcpy Buffer.set s 0 b).bytes := by
  rw [myStrcpy_set s hs 0 b (by omega)]
  simp

end DevKota.Lab3
