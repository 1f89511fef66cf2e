import DevKota.Kernel
import DevKota.CTokens

/-! The kernel's `strsep` and `kstrtol`, with a 32-bit `long`. -/
namespace Kernel
open CString

/-- `strsep` with one delimiter: the token, and the cursor behind the delimiter or `none` for
the NULL it becomes at the end of the string. -/
def strsep (d : Byte) : List Byte → List Byte × Option (List Byte)
  | [] => ([], none)
  | c :: s => if c = d then ([], some s) else (c :: (strsep d s).1, (strsep d s).2)

/-- `_kstrtoull` in base 10: digits, then at most one newline. -/
def parseDigits (s : List Byte) : Except ℤ ℕ :=
  let digits := s.takeWhile isDigit
  let rest := s.dropWhile isDigit
  -- the overflow of `_parse_integer` is reported before the empty input
  if 2^64 ≤ digitRun 0 digits then .error (-ERANGE)
  else if digits = [] then .error (-EINVAL)
  else if rest = [] ∨ rest = [10] then .ok (digitRun 0 digits)
  else .error (-EINVAL)

/-- `kstrtoll`: a minus sign, or a plus sign, in front. -/
def kstrtoll : List Byte → Except ℤ ℤ
  | 45 :: s =>
    match parseDigits s with
    | .ok n => if n ≤ 2^63 then .ok (-(n:ℤ)) else .error (-ERANGE)
    | .error e => .error e
  | s =>
    match parseDigits (match s with | 43 :: t => t | t => t) with
    | .ok n => if n < 2^63 then .ok n else .error (-ERANGE)
    | .error e => .error e

/-- `kstrtol(s, 10, &res)`. -/
def kstrtol (s : List Byte) : Except ℤ ℤ :=
  match kstrtoll s with
  | .ok n => if -(2^31) ≤ n ∧ n < 2^31 then .ok n else .error (-ERANGE)
  | .error e => .error e

theorem strsep_fst_subset (d : Byte) (s : List Byte) : (strsep d s).1 ⊆ s := by
  induction s with
  | nil => exact List.nil_subset _
  | cons c s ih =>
    rw [strsep]
    split_ifs
    · exact List.nil_subset _
    · exact List.cons_subset_cons c ih

theorem strsep_snd_subset (d : Byte) (s rest : List Byte) (h : (strsep d s).2 = some rest) :
    rest ⊆ s := by
  induction s with
  | nil => cases h
  | cons c s ih =>
    rw [strsep] at h
    split_ifs at h
    · obtain rfl := Option.some.inj h
      exact List.subset_cons_self c s
    · exact List.Subset.trans (ih h) (List.subset_cons_self c s)

theorem strsep_append (d : Byte) (s rest : List Byte) (h : d ∉ s) :
    strsep d (s ++ d :: rest) = (s, some rest) := by
  induction s with
  | nil => simp [strsep]
  | cons c s ih =>
    have hc : c ≠ d := fun hc => h (by simp [hc])
    rw [List.cons_append, strsep, if_neg hc, ih fun hs => h (List.mem_cons_of_mem _ hs)]

theorem strsep_of_not_mem (d : Byte) (s : List Byte) (h : d ∉ s) : strsep d s = (s, none) := by
  induction s with
  | nil => rfl
  | cons c s ih =>
    have hc : c ≠ d := fun hc => h (by simp [hc])
    rw [strsep, if_neg hc, ih fun hs => h (List.mem_cons_of_mem _ hs)]

/-- Without a delimiter the token is the whole string. -/
theorem strsep_none (d : Byte) (s : List Byte) (h : (strsep d s).2 = none) : (strsep d s).1 = s := by
  induction s with
  | nil => rfl
  | cons c s ih =>
    rw [strsep] at h ⊢
    split_ifs at h ⊢
    exact congrArg (c :: ·) (ih h)

theorem parseDigits_digits (s : List Byte) (hd : ∀ b ∈ s, isDigit b = true) (hs : s ≠ [])
    (hlt : digitRun 0 s < 2^64) : parseDigits s = .ok (digitRun 0 s) := by
  have htake : s.takeWhile isDigit = s := List.takeWhile_eq_self_iff.mpr hd
  have hdrop : s.dropWhile isDigit = [] := List.dropWhile_eq_nil_iff.mpr hd
  rw [parseDigits, htake, hdrop, if_neg (by omega), if_neg hs, if_pos (Or.inl rfl)]

theorem kstrtoll_unsigned (c : Byte) (s : List Byte) (h45 : c ≠ 45) (h43 : c ≠ 43) (n : ℕ)
    (h : parseDigits (c :: s) = .ok n) (hn : n < 2^63) : kstrtoll (c :: s) = .ok n := by
  have hplus : (match c :: s with | 43 :: t => t | t => t) = c :: s := by
    split
    · rename_i heq
      exact absurd (List.cons.inj heq).1 h43
    · rfl
  unfold kstrtoll
  split
  · rename_i heq
    exact absurd (List.cons.inj heq).1 h45
  · simp only [hplus, h, if_pos hn]

/-- Digits without a sign are read as the number they stand for. -/
theorem kstrtol_digits (s : List Byte) (hd : ∀ b ∈ s, isDigit b = true) (hs : s ≠ [])
    (hlt : digitRun 0 s < 2^31) : kstrtol s = .ok (digitRun 0 s) := by
  have hparse := parseDigits_digits s hd hs (by omega)
  cases s with
  | nil => exact absurd rfl hs
  | cons c s =>
    have hc : isDigit c = true := hd c (by simp)
    have h45 : c ≠ 45 := fun h => by simp [h, isDigit] at hc
    have h43 : c ≠ 43 := fun h => by simp [h, isDigit] at hc
    rw [kstrtol, kstrtoll_unsigned c s h45 h43 _ hparse (by omega)]
    exact if_pos ⟨by omega, by omega⟩

/-- Every `long` is read back from its decimal text. -/
theorem kstrtol_decimalInt (n : ℤ) (h : -(2^31) ≤ n ∧ n < 2^31) : kstrtol (decimalInt n) = .ok n := by
  unfold decimalInt
  split_ifs with hn
  · have hparse := parseDigits_digits (decimal n.natAbs) (isDigit_of_mem_decimal _)
      (decimal_ne_nil _) (by rw [digitRun_decimal]; omega)
    rw [digitRun_decimal] at hparse
    have hll : kstrtoll (45 :: decimal n.natAbs) = .ok n := by
      simp only [kstrtoll, hparse]
      rw [if_pos (by omega)]
      exact congrArg _ (by omega)
    rw [kstrtol, hll]
    exact if_pos h
  · rw [kstrtol_digits _ (isDigit_of_mem_decimal _) (decimal_ne_nil _)
      (by rw [digitRun_decimal]; omega), digitRun_decimal]
    exact congrArg _ (by omega)

/-- What `kstrtol` returns is a `long`. -/
theorem kstrtol_range (s : List Byte) (n : ℤ) (h : kstrtol s = .ok n) : -(2^31) ≤ n ∧ n < 2^31 := by
  unfold kstrtol at h
  split at h
  · split_ifs at h with hr
    obtain rfl := Except.ok.inj h
    exact hr
  · cases h

theorem parseDigits_error (s : List Byte) (e : ℤ) (h : parseDigits s = .error e) : e < 0 := by
  simp only [parseDigits] at h
  split_ifs at h <;> obtain rfl := Except.error.inj h <;> decide

theorem kstrtoll_error (s : List Byte) (e : ℤ) (h : kstrtoll s = .error e) : e < 0 := by
  unfold kstrtoll at h
  split at h
  all_goals
    split at h
    · split_ifs at h
      obtain rfl := Except.error.inj h
      decide
    · rename_i hd
      obtain rfl := Except.error.inj h
      exact parseDigits_error _ _ hd

theorem kstrtol_error (s : List Byte) (e : ℤ) (h : kstrtol s = .error e) : e < 0 := by
  unfold kstrtol at h
  split at h
  · split_ifs at h
    obtain rfl := Except.error.inj h
    decide
  · rename_i hd
    obtain rfl := Except.error.inj h
    exact kstrtoll_error _ _ hd

end Kernel
