import DevKota.Lab3Write

/-! What the text of a lab3 command says, apart from how the driver scans it. -/
namespace DevKota.Lab3
open CString Kernel

/-- What stands behind the three bytes of `-s `, up to the first NUL. -/
def commandText (buf : UserBuf) : List Byte := cstr (buf.bytes.drop 3)

/-- The seconds end at the first blank, or after five characters. -/
def secondsField (text : List Byte) : List Byte := (text.takeWhile (· ≠ 32)).take 5

/-- The digits that the field begins with, behind blanks, tabs and newlines, as a number. -/
def setSeconds (buf : UserBuf) : ℕ :=
  digitRun 0 ((secondsField (commandText buf)).dropWhile fun c => c ∈ [32, 9, 10])

/-- The message is all that follows the seconds, but for the one blank that ends them. -/
def setMessage (buf : UserBuf) : List Byte :=
  let rest := (commandText buf).drop (secondsField (commandText buf)).length
  if rest.head? = some 32 then rest.tail else rest

section Scan

theorem cstr_drop (k : ℕ) (s : List Byte) (h : k ≤ (cstr s).length) :
    cstr (s.drop k) = (cstr s).drop k := by
  induction k generalizing s with
  | zero => rfl
  | succ k ih =>
    cases s with
    | nil => rfl
    | cons c s =>
      rw [cstr_cons] at h ⊢
      split_ifs at h ⊢ with hc
      · cases h
      · rw [List.length_cons] at h
        exact ih s (by omega)

theorem cstr_append_zeros (s : List Byte) (k : ℕ) : cstr (s ++ List.replicate k 0) = cstr s := by
  by_cases hs : 0 ∈ s
  · exact cstr_append_of_mem s _ hs
  · have hzeros : cstr (List.replicate k 0) = [] := by
      cases k with
      | zero => rfl
      | succ k => rfl
    rw [cstr_append_of_not_mem s _ hs, hzeros, List.append_nil, cstr_of_not_mem s hs]

/-- The zeros behind the text in `user_buf` end it where its own end does. -/
theorem cstr_drop_pad (n k : ℕ) (s : List Byte) : cstr ((pad n s).drop k) = cstr (s.drop k) := by
  rw [pad, List.drop_append, List.drop_replicate]
  exact cstr_append_zeros _ _

/-- The first loop stops at a blank, at the end, or when its room is used up. -/
theorem secLoop_eq (room : ℕ) (s : List Byte) :
    (secLoop room s).1 = ((cstr s).takeWhile (· ≠ 32)).take room ∧
      (secLoop room s).2 = s.drop (((cstr s).takeWhile (· ≠ 32)).take room).length := by
  induction room generalizing s with
  | zero => exact ⟨by simp [secLoop], by simp [secLoop]⟩
  | succ room ih =>
    cases s with
    | nil => exact ⟨rfl, rfl⟩
    | cons c s =>
      rw [cstr_cons]
      by_cases hz : c = 0
      · rw [secLoop, if_neg (fun h => h.2 hz), if_pos hz]
        exact ⟨rfl, rfl⟩
      · rw [if_neg hz]
        by_cases hc : c = 32
        · rw [secLoop, if_neg (fun h => h.1 hc), List.takeWhile_cons_of_neg (by simpa using hc)]
          exact ⟨rfl, rfl⟩
        · obtain ⟨hfield, hrest⟩ := ih s
          rw [secLoop, if_pos ⟨hc, hz⟩, List.takeWhile_cons_of_pos (by simpa using hc)]
          exact ⟨by rw [hfield]; rfl, by rw [hrest]; rfl⟩

theorem secondsField_length (text : List Byte) :
    (secondsField text).length ≤ 5 ∧ (secondsField text).length ≤ text.length := by
  have hle := (List.takeWhile_sublist (fun c : Byte => decide (c ≠ 32)) (l := text)).length_le
  unfold secondsField
  rw [List.length_take]
  omega

theorem scanned_seconds (buf : UserBuf) :
    (secLoop 5 ((pad 150 buf.bytes).drop 3)).1 = secondsField (commandText buf) := by
  rw [(secLoop_eq 5 _).1, cstr_drop_pad]
  rfl

theorem cstr_skipBlank (s : List Byte) :
    cstr (skipBlank s) = if (cstr s).head? = some 32 then (cstr s).tail else cstr s := by
  cases s with
  | nil => rfl
  | cons c s =>
    rw [skipBlank]
    by_cases hc : c = 32
    · have hcons : cstr (32 :: s) = 32 :: cstr s := by
        rw [cstr_cons, if_neg (by decide)]
      rw [if_pos hc, hc, hcons]
      rfl
    · have hhead : (cstr (c :: s)).head? ≠ some 32 := by
        rw [cstr_cons]
        split_ifs
        · exact fun h => by cases h
        · exact fun h => hc (Option.some.inj h)
      rw [if_neg hc, if_neg hhead]

/-- A message that fits is scanned as it is written. -/
theorem parseMsg_eq (buf : UserBuf) (h : (parseMsg (pad 150 buf.bytes)).length ≤ 127) :
    parseMsg (pad 150 buf.bytes) = setMessage buf := by
  have hrest : cstr (secLoop 5 ((pad 150 buf.bytes).drop 3)).2 =
      (commandText buf).drop (secondsField (commandText buf)).length := by
    rw [(secLoop_eq 5 _).2, ← (secLoop_eq 5 _).1, scanned_seconds, cstr_drop, cstr_drop_pad]
    · rfl
    · rw [cstr_drop_pad]
      exact (secondsField_length (commandText buf)).2
  have hmsg : parseMsg (pad 150 buf.bytes) = (setMessage buf).take 128 := by
    rw [parseMsg, msgLoop_eq, cstr_skipBlank, hrest]
    rfl
  rw [hmsg, List.length_take] at h
  rw [hmsg, List.take_of_length_le (by omega)]

end Scan

section Number

/-- Reading a field of at most five characters out of the array it was copied to is exact. -/
theorem myAtoi_field (s : List Byte) (hs : s.length ≤ 5) :
    (myAtoi (pad 6 s)).toNat = digitRun 0 (s.dropWhile fun c => c = 32 || c = 9 || c = 10) := by
  let white : Byte → Bool := fun c => c = 32 || c = 9 || c = 10
  let digits := (s.dropWhile white).takeWhile isDigit
  let rest := (s.dropWhile white).dropWhile isDigit
  have hsplit : s.dropWhile white = digits ++ rest := List.takeWhile_append_dropWhile.symm
  have hdigits : ∀ c ∈ digits, isDigit c = true := fun c hc => List.mem_takeWhile_imp hc
  have hrest : ∀ c ∈ rest.head?, isDigit c = false := by
    intro c hc
    have hnot := List.head?_dropWhile_not isDigit (s.dropWhile white)
    rw [hc] at hnot
    exact hnot
  have hlen : digits.length ≤ 5 :=
    ((List.takeWhile_sublist _).trans (List.dropWhile_sublist _)).length_le.trans hs
  have hvalue : digitRun 0 (s.dropWhile white) = digitRun 0 digits := by
    rw [hsplit, digitRun_append _ _ _ hdigits, digitRun_stop _ _ hrest]
  have hpow : 10^digits.length ≤ 10^5 := Nat.pow_le_pow_right (by decide) hlen
  have hlt := digitRun_lt 0 digits hdigits
  -- the zeros behind the field end the digits
  have hpad : (pad 6 s).dropWhile white = digits ++ (rest ++ List.replicate (6-s.length) 0) := by
    rw [pad, List.dropWhile_append, ← List.append_assoc, ← hsplit]
    split_ifs with hempty
    · rw [List.isEmpty_iff.mp hempty]
      have hzero : white 0 = false := by decide
      obtain ⟨k, hk⟩ : ∃ k, 6 - s.length = k+1 := ⟨6-s.length-1, by omega⟩
      rw [hk, List.replicate_succ, List.dropWhile_cons_of_neg (by rw [hzero]; decide)]
      rfl
    · rfl
  apply myAtoi_toNat
  · change (myAtoiDigits 0 ((pad 6 s).dropWhile white)).toNat = digitRun 0 (s.dropWhile white)
    have hzero : (0 : Word).toNat = 0 := rfl
    rw [hpad, hvalue, myAtoiDigits_digits 0 digits _ hdigits _ (by rw [hzero]; omega), hzero]
    intro c hc
    cases hr : rest with
    | nil =>
      rw [hr, List.nil_append] at hc
      rw [List.eq_of_mem_replicate (List.mem_of_mem_head? hc)]
      decide
    | cons b bs =>
      rw [hr] at hc hrest
      exact hrest c hc
  · change digitRun 0 (s.dropWhile white) < 2^31
    rw [hvalue]
    omega

theorem parseSec_eq (buf : UserBuf) : (parseSec (pad 150 buf.bytes)).toNat = setSeconds buf := by
  rw [parseSec, scanned_seconds, myAtoi_field _ (secondsField_length _).1, setSeconds]
  congr 2
  funext c
  simp [Bool.or_assoc]

end Number

/-- A tab in front of the number, letters behind it, and a blank in front of the message. -/
example : setSeconds ⟨ascii "-s \t7x  bob", true⟩ = 7 ∧
    setMessage ⟨ascii "-s \t7x  bob", true⟩ = ascii " bob" := by decide

end DevKota.Lab3
