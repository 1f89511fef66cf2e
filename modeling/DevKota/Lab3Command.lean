import DevKota.Lab3Client

/-! What the lab3 driver reads back from the set command that its client writes. -/
namespace DevKota.Lab3
open CString Kernel

/-- A seconds argument: decimal digits, at least one. -/
def IsNumeral (s : List Byte) : Prop := s ≠ [] ∧ ∀ c ∈ s, isDigit c = true

/-- The scanner of `mytimer_write` gets both arguments back from what the client wrote. -/
structure Recovers (sec msg : Arg) : Prop where
  seconds : (parseSec (pad 150 (Invocation.set sec msg).written.bytes)).toNat = digitRun 0 sec.text
  message : parseMsg (pad 150 (Invocation.set sec msg).written.bytes) = msg.text

section Seconds

/-- The digits of the seconds are copied up to the room in `c_sec`; what is left over stays in
front of the message. -/
theorem secLoop_digits (room : ℕ) (s rest : List Byte) (hs : ∀ c ∈ s, isDigit c = true) :
    secLoop room (s ++ 32 :: rest) = (s.take room, s.drop room ++ 32 :: rest) := by
  induction s generalizing room with
  | nil => cases room <;> simp [secLoop]
  | cons c s ih =>
    have hc : isDigit c = true := hs c (by simp)
    cases room with
    | zero => rfl
    | succ room =>
      have hgo : c ≠ 32 ∧ c ≠ 0 := ⟨digit_ne c 32 hc (by decide), digit_ne c 0 hc (by decide)⟩
      rw [List.cons_append, secLoop, if_pos hgo, ih room fun b hb => hs b (by simp [hb])]
      rfl

theorem myAtoi_numeral (s rest : List Byte) (hs : IsNumeral s)
    (hrest : ∀ c ∈ rest.head?, isDigit c = false) (hlen : s.length ≤ 9) :
    (myAtoi (s ++ rest)).toNat = digitRun 0 s := by
  obtain ⟨hne, hdig⟩ := hs
  obtain ⟨c, s, rfl⟩ := List.exists_cons_of_ne_nil hne
  have hc : isDigit c = true := hdig c (by simp)
  have h32 := digit_ne c 32 hc (by decide)
  have h9 := digit_ne c 9 hc (by decide)
  have h10 := digit_ne c 10 hc (by decide)
  have hpow : 10^(c :: s).length ≤ 10^9 := Nat.pow_le_pow_right (by decide) hlen
  have hzero : (0 : Word).toNat = 0 := rfl
  have hread : (myAtoiDigits 0 ((c :: s) ++ rest)).toNat = digitRun 0 (c :: s) :=
    myAtoiDigits_digits 0 (c :: s) rest hdig hrest (by rw [hzero]; omega)
  have hskip : ((c :: s) ++ rest).dropWhile (fun c => c = 32 || c = 9 || c = 10) =
      (c :: s) ++ rest := by
    rw [List.cons_append, List.dropWhile_cons_of_neg]
    simp [h32, h9, h10]
  have hlt := digitRun_lt 0 (c :: s) hdig
  apply myAtoi_toNat
  · rw [hskip]
    exact hread
  · omega

end Seconds

section Scan
variable (sec msg : Arg)

/-- The scanned text: both arguments, with the NUL and the padding of `user_buf` behind. -/
theorem scanned (hfit : (Invocation.set sec msg).formatted.length ≤ 148) :
    ∃ rest, (pad 150 (Invocation.set sec msg).written.bytes).drop 3 =
      sec.text ++ 32 :: (msg.text ++ 0 :: rest) := by
  have htake : (Invocation.set sec msg).formatted.take 149 =
      ascii "-s " ++ sec.text ++ ascii " " ++ msg.text :=
    List.take_of_length_le (by omega)
  refine ⟨List.replicate (150 - (Invocation.set sec msg).written.bytes.length) 0, ?_⟩
  unfold pad
  rw [written_bytes, htake]
  simp [ascii]

theorem parsed (hfit : (Invocation.set sec msg).formatted.length ≤ 148)
    (hsec : IsNumeral sec.text) :
    parseSec (pad 150 (Invocation.set sec msg).written.bytes) = myAtoi (pad 6 (sec.text.take 5)) ∧
      parseMsg (pad 150 (Invocation.set sec msg).written.bytes) =
        ((if sec.text.length ≤ 5 then msg.text
          else sec.text.drop 5 ++ 32 :: msg.text)).take 128 := by
  obtain ⟨rest, hdrop⟩ := scanned sec msg hfit
  have hloop := secLoop_digits 5 sec.text (msg.text ++ 0 :: rest) hsec.2
  rw [← hdrop] at hloop
  unfold parseSec parseMsg
  rw [hloop]
  refine ⟨rfl, ?_⟩
  rw [msgLoop_eq]
  have hz32 : (0 : Byte) ≠ 32 := by decide
  split_ifs with hl
  · -- the blank behind the whole seconds field is skipped
    rw [List.drop_of_length_le hl, List.nil_append, skipBlank, if_pos rfl,
      cstr_append_zero _ _ msg.text_zero]
  · -- a digit is left over: it is no blank, and opens the message
    obtain ⟨c, s, hcs⟩ : ∃ c s, sec.text.drop 5 = c :: s :=
      List.exists_cons_of_ne_nil (by simpa [List.drop_eq_nil_iff] using hl)
    have hc : isDigit c = true := hsec.2 c (List.mem_of_mem_drop (hcs ▸ List.mem_cons_self))
    have hzero : 0 ∉ (c :: s) ++ 32 :: msg.text := by
      rw [← hcs]
      simp only [List.mem_append, List.mem_cons, not_or]
      exact ⟨fun h => sec.text_zero (List.mem_of_mem_drop h), hz32, msg.text_zero⟩
    rw [hcs, List.cons_append, skipBlank, if_neg (digit_ne c 32 hc (by decide))]
    have hend := cstr_append_zero ((c :: s) ++ 32 :: msg.text) rest hzero
    simp only [List.cons_append, List.append_assoc] at hend ⊢
    rw [hend]

end Scan

/-- For numerals and messages that the driver's arrays have room for, both arguments are read
back exactly when the numeral has at most five digits. -/
theorem set_recovers_iff (sec msg : Arg) (hsec : IsNumeral sec.text) (hmsg : msg.text.length ≤ 127)
    (hfit : (Invocation.set sec msg).formatted.length ≤ 148) :
    Recovers sec msg ↔ sec.text.length ≤ 5 := by
  obtain ⟨hs, hm⟩ := parsed sec msg hfit hsec
  constructor
  · intro h
    by_contra hlong
    have hlen := congrArg List.length (hm.symm.trans h.message)
    rw [if_neg hlong, List.length_take, List.length_append, List.length_drop,
      List.length_cons] at hlen
    omega
  · intro hl
    rw [if_pos hl, List.take_of_length_le (by omega)] at hm
    refine ⟨?_, hm⟩
    rw [hs, List.take_of_length_le hl]
    apply myAtoi_numeral _ _ hsec
    · intro c hc
      -- behind the digits the array holds zeros
      have hmem := List.mem_of_mem_head? hc
      rw [List.eq_of_mem_replicate hmem]
      decide
    · omega

set_option maxRecDepth 8192 in
theorem set_recovers_iff_run : Recovers ⟨ascii "00075", by decide⟩ ⟨ascii " 9 lives\n", by decide⟩ :=
  (set_recovers_iff _ _ ⟨by decide, by decide⟩ (by decide) (by decide)).mpr (by decide)

set_option maxRecDepth 8192 in
/-- A seconds field of six digits spills its last one into the message. -/
theorem set_spills : ¬ ∀ (cfg : Config) (sec msg : Arg), IsNumeral sec.text →
    digitRun 0 sec.text*cfg.HZ < 2^31 → msg.text.length ≤ 127 →
      (Invocation.set sec msg).formatted.length ≤ 148 → Recovers sec msg := by
  intro hall
  have h := hall sampleConfig ⟨ascii "100000", by decide⟩ ⟨ascii "tea", by decide⟩
    ⟨by decide, by decide⟩ (by decide) (by decide) (by decide)
  have hm := h.message
  rw [show parseMsg (pad 150 (Invocation.set ⟨ascii "100000", by decide⟩
    ⟨ascii "tea", by decide⟩).written.bytes) = ascii "0 tea" by decide] at hm
  exact absurd hm (by decide)

end DevKota.Lab3
