import Mathlib.Data.List.TakeWhile
import Mathlib.Tactic

/-! C strings as byte lists, decimal output and input, and char arrays of a fixed size. -/
namespace CString

abbrev Byte := UInt8

/-- The bytes of a string literal. -/
def ascii (s : String) : List Byte := s.toList.map fun c => c.toNat.toUInt8

/-- The C string that starts at the head of a memory area: the bytes before the first NUL. -/
def cstr (m : List Byte) : List Byte := m.takeWhile (· ≠ 0)

theorem cstr_cons (a : Byte) (m : List Byte) :
    cstr (a :: m) = if a = 0 then [] else a :: cstr m := by
  unfold cstr
  by_cases ha : a = 0 <;> simp [ha]

theorem cstr_append_zero (s t : List Byte) (h : 0 ∉ s) : cstr (s ++ 0 :: t) = s := by
  unfold cstr
  rw [List.takeWhile_append_of_pos (by
    intro b hb
    simpa using fun hz : b = 0 => h (hz ▸ hb))]
  simp

@[simp] theorem cstr_of_not_mem (s : List Byte) (h : 0 ∉ s) : cstr s = s :=
  List.takeWhile_eq_self_iff.mpr (by
    intro b hb
    simpa using fun hz : b = 0 => h (hz ▸ hb))

@[simp] theorem zero_not_mem_cstr (m : List Byte) : 0 ∉ cstr m := by
  intro h
  have hz := List.mem_takeWhile_imp h
  simp at hz

theorem cstr_append_of_mem (s t : List Byte) (h : 0 ∈ s) : cstr (s ++ t) = cstr s := by
  induction s with
  | nil => simp at h
  | cons a s ih =>
    rw [List.cons_append, cstr_cons, cstr_cons]
    split_ifs with ha
    · rfl
    · have hs : 0 ∈ s := (List.mem_cons.mp h).resolve_left (Ne.symm ha)
      rw [ih hs]

theorem cstr_append_of_not_mem (s t : List Byte) (h : 0 ∉ s) : cstr (s ++ t) = s ++ cstr t := by
  induction s with
  | nil => rfl
  | cons a s ih =>
    have ha : a ≠ 0 := fun ha => h (by simp [ha])
    rw [List.cons_append, cstr_cons, if_neg ha, ih fun hs => h (List.mem_cons_of_mem _ hs)]
    rfl

theorem cstr_length_lt (m : List Byte) (h : 0 ∈ m) : (cstr m).length < m.length := by
  induction m with
  | nil => simp at h
  | cons a m ih =>
    rw [cstr_cons]
    split_ifs with ha
    · simp
    · have hm : 0 ∈ m := (List.mem_cons.mp h).resolve_left (Ne.symm ha)
      simpa using ih hm

/-- A NUL at an index ends the string there or before it. -/
theorem cstr_set_length (m : List Byte) (i : ℕ) (h : i < m.length) :
    (cstr (m.set i 0)).length ≤ i := by
  have hlt := cstr_length_lt (m.take i ++ [0]) (by simp)
  rw [List.length_append, List.length_take, List.length_singleton] at hlt
  rw [List.set_eq_take_append_cons_drop, if_pos h, List.append_cons,
    cstr_append_of_mem _ _ (by simp)]
  omega

/-- The `%lu` conversion. -/
def decimal (n : ℕ) : List Byte := (Nat.toDigits 10 n).map fun c => c.toNat.toUInt8

/-- The `%d` conversion. -/
def decimalInt (n : ℤ) : List Byte :=
  if n < 0 then 45 :: decimal n.natAbs else decimal n.toNat

def isDigit (b : Byte) : Bool := 48 ≤ b && b ≤ 57

theorem decimal_length_le (n k : ℕ) (hk : 0 < k) (h : n < 10^k) : (decimal n).length ≤ k := by
  simpa [decimal] using (Nat.length_toDigits_le_iff (b := 10) (by decide) hk).mpr h

theorem decimal_length_pos (n : ℕ) : 0 < (decimal n).length := by
  simpa [decimal] using Nat.length_toDigits_pos

theorem decimal_ne_nil (n : ℕ) : decimal n ≠ [] :=
  List.ne_nil_of_length_pos (decimal_length_pos n)

theorem digitChar_byte (d : ℕ) (h : d < 10) :
    d.digitChar.toNat.toUInt8 = 48 + d.toUInt8 := by
  interval_cases d <;> rfl

theorem decimal_of_lt_ten (n : ℕ) (h : n < 10) : decimal n = [48 + n.toUInt8] := by
  simp only [decimal, Nat.toDigits_of_lt_base h, List.map_cons, List.map_nil,
    digitChar_byte n h]

theorem decimal_of_ten_le (n : ℕ) (h : 10 ≤ n) :
    decimal n = decimal (n/10) ++ [48 + (n%10).toUInt8] := by
  have hn : ¬ n < 10 := by omega
  unfold decimal
  rw [Nat.toDigits_eq_if (by decide), if_neg hn, List.map_append, List.map_cons, List.map_nil,
    digitChar_byte _ (Nat.mod_lt n (by decide))]

theorem isDigit_offset (d : ℕ) (h : d < 10) : isDigit (48 + d.toUInt8) = true := by
  interval_cases d <;> rfl

theorem isDigit_of_mem_decimal (n : ℕ) (b : Byte) (hb : b ∈ decimal n) : isDigit b = true := by
  induction n using Nat.strong_induction_on with
  | _ n ih =>
    by_cases hn : n < 10
    · rw [decimal_of_lt_ten n hn, List.mem_singleton] at hb
      rw [hb]
      exact isDigit_offset n hn
    · rw [decimal_of_ten_le n (by omega), List.mem_append, List.mem_singleton] at hb
      rcases hb with hb | hb
      · exact ih (n/10) (by omega) hb
      · rw [hb]
        exact isDigit_offset _ (Nat.mod_lt n (by decide))

/-- A byte that is no digit does not occur in a printed number. -/
theorem not_mem_decimal (n : ℕ) (b : Byte) (h : isDigit b = false) : b ∉ decimal n := by
  intro hb
  rw [isDigit_of_mem_decimal n b hb] at h
  cases h

theorem decimalInt_length (n : ℤ) (h : -(2^31) ≤ n ∧ n < 2^31) : (decimalInt n).length ≤ 11 := by
  unfold decimalInt
  split_ifs
  · have := decimal_length_le n.natAbs 10 (by decide) (by omega)
    rw [List.length_cons]
    omega
  · have := decimal_length_le n.toNat 10 (by decide) (by omega)
    omega

theorem not_mem_decimalInt (n : ℤ) (b : Byte) (h : isDigit b = false) (h45 : b ≠ 45) :
    b ∉ decimalInt n := by
  unfold decimalInt
  split_ifs
  · simp only [List.mem_cons, not_or]
    exact ⟨h45, not_mem_decimal _ b h⟩
  · exact not_mem_decimal _ b h

/-- The digit loop of `atoi`, with the value read so far. -/
def digitRun : ℕ → List Byte → ℕ
  | acc, c :: cs => if isDigit c then digitRun (acc*10 + (c.toNat-48)) cs else acc
  | acc, [] => acc

def isSpace (b : Byte) : Bool := b = 32 || (9 ≤ b && b ≤ 13)

/-- `atoi`: white space, one sign, digits. -/
def atoi (s : List Byte) : ℤ :=
  match s.dropWhile isSpace with
  -- '-' and '+'
  | 45 :: cs => -(digitRun 0 cs : ℤ)
  | 43 :: cs => digitRun 0 cs
  | cs => digitRun 0 cs

theorem atoi_unsigned (b : Byte) (s : List Byte) (hs : isSpace b = false) (h45 : b ≠ 45)
    (h43 : b ≠ 43) : atoi (b :: s) = digitRun 0 (b :: s) := by
  unfold atoi
  rw [List.dropWhile_cons_of_neg (by simp [hs])]
  split
  · rename_i heq
    exact absurd (List.cons.inj heq).1 h45
  · rename_i heq
    exact absurd (List.cons.inj heq).1 h43
  · rfl

theorem digit_value (d : ℕ) (h : d < 10) : (48 + d.toUInt8 : Byte).toNat - 48 = d := by
  interval_cases d <;> rfl

theorem digitRun_append (acc : ℕ) (s t : List Byte) (h : ∀ b ∈ s, isDigit b = true) :
    digitRun acc (s ++ t) = digitRun (digitRun acc s) t := by
  induction s generalizing acc with
  | nil => rfl
  | cons c s ih =>
    have hc : isDigit c = true := h c (by simp)
    simp only [List.cons_append, digitRun, hc, if_true]
    exact ih _ fun b hb => h b (by simp [hb])

theorem digitRun_stop (acc : ℕ) (s : List Byte) (h : ∀ b ∈ s.head?, isDigit b = false) :
    digitRun acc s = acc := by
  cases s with
  | nil => rfl
  | cons c s =>
    have hc : isDigit c = false := h c (by simp)
    simp [digitRun, hc]

@[simp] theorem digitRun_decimal (n : ℕ) : digitRun 0 (decimal n) = n := by
  induction n using Nat.strong_induction_on with
  | _ n ih =>
    by_cases hn : n < 10
    · rw [decimal_of_lt_ten n hn]
      simp only [digitRun, isDigit_offset n hn, if_true, digit_value n hn]
      omega
    · have hm : n%10 < 10 := Nat.mod_lt n (by decide)
      rw [decimal_of_ten_le n (by omega), digitRun_append _ _ _ (isDigit_of_mem_decimal _),
        ih (n/10) (by omega)]
      simp only [digitRun, isDigit_offset _ hm, if_true, digit_value _ hm]
      omega

theorem not_isSpace_of_isDigit (b : Byte) (h : isDigit b = true) : isSpace b = false := by
  simp only [isDigit, Bool.and_eq_true, decide_eq_true_eq, UInt8.le_iff_toNat_le] at h
  simp only [isSpace, Bool.or_eq_false_iff, Bool.and_eq_false_iff, decide_eq_false_iff_not,
    UInt8.le_iff_toNat_le, ← UInt8.toNat_inj]
  simp at h ⊢
  omega

/-- Digits followed by anything but a digit are read back by `atoi`. -/
theorem atoi_digits (s t : List Byte) (hs : s ≠ []) (hd : ∀ b ∈ s, isDigit b = true)
    (ht : ∀ b ∈ t.head?, isDigit b = false) : atoi (s ++ t) = digitRun 0 s := by
  cases s with
  | nil => exact absurd rfl hs
  | cons c s =>
    have hc : isDigit c = true := hd c (by simp)
    have hrun : digitRun 0 (c :: (s ++ t)) = digitRun 0 (c :: s) := by
      rw [← List.cons_append, digitRun_append _ _ _ hd, digitRun_stop _ _ ht]
    -- a digit is neither white space nor a sign, so the digit loop starts at it
    have h45 : c ≠ 45 := by
      intro h
      simp [h, isDigit] at hc
    have h43 : c ≠ 43 := by
      intro h
      simp [h, isDigit] at hc
    rw [List.cons_append, atoi_unsigned c _ (not_isSpace_of_isDigit c hc) h45 h43]
    exact congrArg _ hrun

theorem atoi_decimal (n : ℕ) (t : List Byte) (ht : ∀ b ∈ t.head?, isDigit b = false) :
    atoi (decimal n ++ t) = n := by
  rw [atoi_digits _ _ (decimal_ne_nil n) (isDigit_of_mem_decimal n) ht, digitRun_decimal]

/-- Digits stand for a number below the power of ten that their count gives. -/
theorem digitRun_lt (acc : ℕ) (s : List Byte) (h : ∀ b ∈ s, isDigit b = true) :
    digitRun acc s < (acc+1)*10^s.length := by
  induction s generalizing acc with
  | nil => simp [digitRun]
  | cons c s ih =>
    have hc : isDigit c = true := h c (by simp)
    have hval : c.toNat - 48 ≤ 9 := by
      simp only [isDigit, Bool.and_eq_true, decide_eq_true_eq, UInt8.le_iff_toNat_le] at hc
      have h57 : (57 : Byte).toNat = 57 := rfl
      omega
    rw [digitRun, if_pos hc, List.length_cons]
    -- the digit read adds at most 9 to ten times the value so far
    calc
      _ < (acc*10 + (c.toNat-48) + 1)*10^s.length := ih _ fun b hb => h b (by simp [hb])
      _ ≤ ((acc+1)*10)*10^s.length := Nat.mul_le_mul_right _ (by omega)
      _ = (acc+1)*10^(s.length+1) := by ring

/-- The digits left of a number that was cut short stand for a smaller number. -/
theorem digitRun_take_lt (n q : ℕ) (hn : 0 < n) (hq : q < (decimal n).length) :
    digitRun 0 ((decimal n).take q) < n := by
  have hlen : ((decimal n).take q).length = q := by
    rw [List.length_take]
    omega
  have hlt := digitRun_lt 0 ((decimal n).take q) fun b hb =>
    isDigit_of_mem_decimal n b (List.mem_of_mem_take hb)
  rw [hlen, Nat.zero_add, Nat.one_mul] at hlt
  rcases Nat.eq_zero_or_pos q with rfl | hq0
  · simpa [digitRun] using hn
  · -- otherwise `n` is below `10^q` and is printed with at most `q` digits
    by_contra hle
    have h10 : n < 10^q := by omega
    have := decimal_length_le n q hq0 h10
    omega

theorem atoi_of_letter (b : Byte) (s : List Byte) (hs : isSpace b = false)
    (hd : isDigit b = false) (h45 : b ≠ 45) (h43 : b ≠ 43) : atoi (b :: s) = 0 := by
  rw [atoi_unsigned b s hs h45 h43, digitRun_stop]
  · rfl
  · simpa using hd

/-- A byte in front of something that starts no number is read on its own. -/
theorem atoi_cons_single (b : Byte) (s : List Byte) (hs : atoi s = 0)
    (hd : ∀ c ∈ s.head?, isDigit c = false) : atoi (b :: s) = atoi [b] := by
  by_cases hb : isSpace b = true
  · -- white space is skipped, and what is left starts no number
    have h1 : atoi (b :: s) = atoi s := by
      unfold atoi
      rw [List.dropWhile_cons_of_pos hb]
    have h2 : atoi [b] = 0 := by
      unfold atoi
      rw [List.dropWhile_cons_of_pos hb]
      rfl
    rw [h1, h2, hs]
  · -- the digit loop stops where `s` begins, whether or not `b` is a sign
    have hrun (acc : ℕ) : digitRun acc s = acc := digitRun_stop acc s hd
    have hs : isSpace b = false := by simpa using hb
    by_cases h45 : b = 45
    · rw [h45]
      exact congrArg (fun n : ℕ => -(n : ℤ)) (hrun 0)
    by_cases h43 : b = 43
    · rw [h43]
      exact congrArg (fun n : ℕ => (n : ℤ)) (hrun 0)
    rw [atoi_unsigned b s hs h45 h43, atoi_unsigned b [] hs h45 h43]
    simp only [digitRun, hrun]

theorem atoi_single_le (b : Byte) : atoi [b] ≤ 9 := by
  by_cases hd : isDigit b = true
  · have h := atoi_digits [b] [] (by simp) (by simpa using hd) (by simp)
    have hlt := digitRun_lt 0 [b] (by simpa using hd)
    rw [List.append_nil] at h
    simp only [List.length_singleton] at hlt
    omega
  · -- white space, a sign or a letter on its own: the value is zero
    have hzero : atoi [b] = 0 := by
      by_cases hs : isSpace b = true
      · unfold atoi
        rw [List.dropWhile_cons_of_pos hs]
        rfl
      by_cases h45 : b = 45
      · rw [h45]
        rfl
      by_cases h43 : b = 43
      · rw [h43]
        rfl
      exact atoi_of_letter b [] (by simpa using hs) (by simpa using hd) h45 h43
    omega

/-- A `char` array of `n` bytes. -/
structure Buffer (n : ℕ) where
  bytes : List Byte
  length_eq : bytes.length = n
  deriving DecidableEq

namespace Buffer

variable {n : ℕ}

def zero (n : ℕ) : Buffer n := ⟨List.replicate n 0, List.length_replicate⟩

/-- One store; an index outside the array stores nothing here. -/
def set (b : Buffer n) (i : ℕ) (x : Byte) : Buffer n :=
  ⟨b.bytes.set i x, by rw [List.length_set, b.length_eq]⟩

/-- Store a run of bytes from an offset on, as far as the array goes. -/
def overwrite (b : Buffer n) (off : ℕ) (xs : List Byte) : Buffer n :=
  ⟨(b.bytes.take off ++ xs ++ b.bytes.drop (off + xs.length)).take n, by
    have := b.length_eq
    simp only [List.length_take, List.length_append, List.length_drop]
    omega⟩

/-- `snprintf(b + off, n - off, ..)` of an already formatted text: what does not fit before
the closing NUL is cut off. -/
def snprintf (b : Buffer n) (off : ℕ) (text : List Byte) : Buffer n :=
  if off < n then b.overwrite off (text.take (n-off-1) ++ [0]) else b

@[simp] theorem zero_bytes (n : ℕ) : (zero n).bytes = List.replicate n 0 := rfl

@[simp] theorem set_bytes (b : Buffer n) (i : ℕ) (x : Byte) :
    (b.set i x).bytes = b.bytes.set i x := rfl

theorem overwrite_bytes (b : Buffer n) (off : ℕ) (xs : List Byte) (h : off + xs.length ≤ n) :
    (b.overwrite off xs).bytes = b.bytes.take off ++ xs ++ b.bytes.drop (off + xs.length) := by
  have := b.length_eq
  apply List.take_of_length_le
  simp only [List.length_append, List.length_take, List.length_drop]
  omega

theorem overwrite_zero (b : Buffer n) (xs : List Byte) (h : xs.length ≤ n) :
    (b.overwrite 0 xs).bytes = xs ++ b.bytes.drop xs.length := by
  rw [overwrite_bytes _ _ _ (by omega)]
  simp

theorem take_snprintf (b : Buffer n) (off : ℕ) (text : List Byte) (h : off + text.length < n) :
    (b.snprintf off text).bytes.take (off + text.length) = b.bytes.take off ++ text := by
  have hb := b.length_eq
  have hoff : off < n := by omega
  have hcut : text.take (n-off-1) = text := List.take_of_length_le (by omega)
  rw [snprintf, if_pos hoff, hcut, overwrite_bytes _ _ _ (by simp; omega), List.append_assoc,
    List.append_assoc, ← List.append_assoc]
  exact List.take_left' (by simp; omega)

/-- A text that fits becomes the string behind what stood before the offset. -/
theorem cstr_snprintf (b : Buffer n) (off : ℕ) (text : List Byte) (h : off + text.length < n)
    (hb : 0 ∉ b.bytes.take off) (ht : 0 ∉ text) :
    cstr (b.snprintf off text).bytes = b.bytes.take off ++ text := by
  have hoff : off < n := by omega
  have hcut : text.take (n-off-1) = text := List.take_of_length_le (by omega)
  rw [snprintf, if_pos hoff, hcut, overwrite_bytes _ _ _ (by simp; omega)]
  have hz : 0 ∉ b.bytes.take off ++ text := by
    simp only [List.mem_append, not_or]
    exact ⟨hb, ht⟩
  have := cstr_append_zero (b.bytes.take off ++ text) (b.bytes.drop (off + (text ++ [0]).length)) hz
  simpa using this

/-- Formatting into the whole array gives the text, cut where the array ends. -/
theorem cstr_snprintf_zero (b : Buffer n) (text : List Byte) (hn : 0 < n) (ht : 0 ∉ text) :
    cstr (b.snprintf 0 text).bytes = text.take (n-1) := by
  have hz : 0 ∉ text.take (n-1) := fun h => ht (List.mem_of_mem_take h)
  rw [snprintf, if_pos hn, Nat.sub_zero, overwrite_zero _ _ (by simp; omega), List.append_assoc]
  exact cstr_append_zero _ _ hz

end Buffer

end CString
