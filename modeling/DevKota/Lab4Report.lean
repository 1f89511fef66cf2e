import DevKota.Lab4Driver
import DevKota.ChunkedReads

/-! The status report of the lab4 driver and what reads of the device deliver of it. -/
namespace DevKota.Lab4
open CString Kernel ChunkedReads

/-- What the stack holds when `my_read` is entered: the arrays `mode` and `output_msg`, and the
bytes behind `mode`. -/
structure Stack where
  mode : Buffer 20
  behind : List Byte
  outputMsg : Buffer 120

/-- `strscpy`: nothing is written for a count of zero. -/
def strscpy {n : ℕ} (dest : Buffer n) (src : List Byte) (count : Word) : Buffer n :=
  if count = 0 then dest
  else dest.overwrite 0 (src.take (count.toNat-1) ++ [0])

/-- `"%d"` of an output. -/
def digit (value : Bool) : List Byte := decimalInt (if value then 1 else 0)

namespace Driver

/-- The array `mode` after the `switch`. The last branch passes the mode as the size. -/
def modeArray (d : Driver) (stack : Stack) : Buffer 20 :=
  if d.timer.mode = NORMAL then strscpy stack.mode (ascii "Mode: Normal") 20
  else if d.timer.mode = FLASH_RED then strscpy stack.mode (ascii "Mode: Flashing Red") 20
  else if d.timer.mode = FLASH_YELLOW then strscpy stack.mode (ascii "Mode: Flashing Yellow") 20
  else strscpy stack.mode (ascii "Unknown Mode: %d") d.timer.mode

/-- One of the arrays of 20 bytes that a short text is printed into, read back by `%s`. -/
def shortText (text : List Byte) : List Byte := cstr ((Buffer.zero 20).snprintf 0 text).bytes

/-- The text printed to `output_msg`: five arguments, of which the format takes four. -/
def outputText (d : Driver) (stack : Stack) : List Byte :=
  let mode := cstr ((d.modeArray stack).bytes ++ stack.behind)
  let rate := shortText (ascii "Cycle Rate: " ++ decimalInt 1 ++ ascii " Hz")
  let rStatus := shortText (ascii "Red: " ++ digit (d.gpioGetValue .RED))
  let yStatus := shortText (ascii "Yellow: " ++ digit (d.gpioGetValue .YELLOW))
  mode ++ ascii "\n" ++ rate ++ ascii "\n" ++ rStatus ++ ascii "\n" ++ yStatus ++ ascii "\n"

/-- `sizeof(test)/sizeof(test[0])`. -/
def sizeofTest : ℕ := (ascii "Hello World from read\n").length + 1

/-- `my_read`: the bytes copied out, the return value and the new offset. -/
def myRead (d : Driver) (stack : Stack) (size offset : ℕ) (mapped : Bool) :
    List Byte × ℤ × ℕ :=
  let outputMsg := stack.outputMsg.snprintf 0 (d.outputText stack)
  -- the length of one array bounds what is taken from the other
  let len := min (BitVec.ofInt 32 ((sizeofTest:ℤ) - offset)).toInt (BitVec.ofNat 32 size).toInt
  if len ≤ 0 then ([], 0, offset)
  else if ¬ mapped then ([], -EFAULT, offset)
  else ((outputMsg.bytes.drop offset).take len.toNat, len, offset + len.toNat)

/-- The mode in words, with the number of an unknown one. -/
def modeText (d : Driver) : List Byte :=
  if d.timer.mode = NORMAL then ascii "Mode: Normal"
  else if d.timer.mode = FLASH_RED then ascii "Mode: Flashing Red"
  else if d.timer.mode = FLASH_YELLOW then ascii "Mode: Flashing Yellow"
  else ascii "Unknown Mode: " ++ decimal d.timer.mode.toNat

/-- The report that the comment in `my_read` asks for, in the driver's own wording: the mode,
the cycle rate and the status of each light. -/
def statusReport (d : Driver) : List Byte :=
  d.modeText ++ ascii "\nCycle Rate: 1 Hz\nRed: " ++ digit d.lamps.red ++
    ascii "\nYellow: " ++ digit d.lamps.yellow ++ ascii "\nGreen: " ++ digit d.lamps.green ++
    ascii "\n"

end Driver

/-- One read: what the stack holds, and the size that is asked for. -/
structure Request where
  stack : Stack
  size : ℕ

/-- Reads with a mapped buffer, which leave the driver as it is. -/
def reader (d : Driver) : Reader Unit Request Byte := fun _ r offset =>
  let out := d.myRead r.stack r.size offset true
  ((), out.1, out.2.2)

section Lengths
variable (d : Driver)

theorem outputMsg_length (stack : Stack) :
    (stack.outputMsg.snprintf 0 (d.outputText stack)).bytes.length = 120 :=
  Buffer.length_eq _

/-- The 32-bit difference that bounds a read, for an offset within the array. -/
theorem bound_eq (offset : ℕ) (h : offset ≤ 23) :
    (BitVec.ofInt 32 ((Driver.sizeofTest:ℤ) - offset)).toInt = 23 - offset := by
  have hs : (Driver.sizeofTest:ℤ) = 23 := by decide
  rw [hs, BitVec.toInt_ofInt]
  apply Int.bmod_eq_of_le <;> omega

/-- A read within the array returns what it counts, and never moves beyond the array. -/
theorem myRead_length (stack : Stack) (size offset : ℕ) (h : offset ≤ 23) :
    (d.myRead stack size offset true).2.2 =
        offset + (d.myRead stack size offset true).1.length ∧
      (d.myRead stack size offset true).2.2 ≤ 23 := by
  have hlen := outputMsg_length d stack
  simp only [Driver.myRead, bound_eq offset h, not_true_eq_false, if_false]
  split_ifs with hl
  · exact ⟨by simp, h⟩
  · simp only [List.length_take, List.length_drop, hlen]
    omega

/-- A read returns the bytes from its offset on, out of the first 23 of the printed text. -/
theorem myRead_bytes (stack : Stack) (size offset : ℕ) (text : List Byte) (hsize : size < 2^31)
    (htake : (stack.outputMsg.snprintf 0 (d.outputText stack)).bytes.take 23 = text) :
    (d.myRead stack size offset true).1 = (text.drop offset).take size := by
  have hlen := outputMsg_length d stack
  have htext : text.length = 23 := by
    rw [← htake, List.length_take, hlen]
    rfl
  have hint : (BitVec.ofNat 32 size).toInt = size := by
    have hnat : (BitVec.ofNat 32 size).toNat = size := by
      rw [BitVec.toNat_ofNat]
      omega
    rw [BitVec.toInt_eq_toNat_of_lt (by omega), hnat]
  simp only [Driver.myRead, hint, not_true_eq_false, if_false]
  by_cases hp : offset ≤ 23
  · rw [bound_eq offset hp]
    split_ifs with hl
    · -- the array is used up, or nothing was asked for
      rcases Nat.eq_zero_or_pos size with hz | hz
      · rw [hz, List.take_zero]
      · rw [List.drop_of_length_le (by omega), List.take_nil]
    · have hcount : (min (23 - (offset:ℤ)) size).toNat = min size (23-offset) := by omega
      rw [hcount, ← htake, List.drop_take, List.take_take]
  · -- behind the array nothing is served, nor behind the whole text
    rw [List.drop_of_length_le (l := text) (by omega), List.take_nil]
    by_cases h120 : 120 ≤ offset
    · rw [List.drop_of_length_le (by omega), List.take_nil]
      split_ifs <;> rfl
    · have hneg : (BitVec.ofInt 32 ((Driver.sizeofTest:ℤ) - offset)).toInt = 23 - offset := by
        have hs : (Driver.sizeofTest:ℤ) = 23 := by decide
        rw [hs, BitVec.toInt_ofInt]
        apply Int.bmod_eq_of_le <;> omega
      rw [hneg, if_pos (by omega)]

theorem statusReport_length : 43 ≤ d.statusReport.length := by
  have hdigit (b : Bool) : (digit b).length = 1 := by cases b <;> rfl
  have h1 : (ascii "\nCycle Rate: 1 Hz\nRed: ").length = 23 := by decide
  have h2 : (ascii "\nYellow: ").length = 9 := by decide
  have h3 : (ascii "\nGreen: ").length = 8 := by decide
  simp only [Driver.statusReport, List.length_append, hdigit, h1, h2, h3]
  omega

end Lengths

theorem reader_advances (d : Driver) : Advances (reader d) 23 :=
  fun _ r offset h => myRead_length d r.stack r.size offset h

theorem delivered_ne_report (d : Driver) (reads : ℕ → Request) (n : ℕ) :
    delivered (reader d) () reads n ≠ d.statusReport := by
  intro heq
  have hlen := delivered_length (reader_advances d) () reads n
  have hle := cursor_le (reader_advances d) () reads n
  have hrep := statusReport_length d
  rw [heq] at hlen
  omega

/-- Whatever the lamps, the mode, the stack and the sizes are, the bytes that arrive before
the first empty read are not the report: there are at most 23 of them. -/
theorem report_never_delivered (d : Driver) (reads : ℕ → Request) :
    ∃ n, chunk (reader d) () reads n = [] ∧ (∀ i < n, chunk (reader d) () reads i ≠ []) ∧
      delivered (reader d) () reads n ≠ d.statusReport := by
  obtain ⟨n, hn, hfirst⟩ := exists_first_empty (reader_advances d) () reads
  exact ⟨n, hn, hfirst, delivered_ne_report d reads n⟩

/-- Reads of 120 bytes in the normal mode, with the yellow lamp lit. -/
theorem report_cut : ¬ ∀ (d : Driver) (reads : ℕ → Request), (∀ n, 0 < (reads n).size) →
    ∃ n, chunk (reader d) () reads n = [] ∧ (∀ i < n, chunk (reader d) () reads i ≠ []) ∧
      delivered (reader d) () reads n = d.statusReport := by
  intro hall
  obtain ⟨n, -, -, heq⟩ := hall ⟨⟨false, false, true⟩, ⟨TimerList.zeroed, NORMAL, 4⟩⟩
    (fun _ => ⟨⟨Buffer.zero 20, [], Buffer.zero 120⟩, 120⟩) (fun _ => by decide)
  exact delivered_ne_report _ _ n heq

section NormalMode
variable (d : Driver) (hmode : d.timer.mode = NORMAL) (stack : Stack)
include hmode

theorem outputText_normal : d.outputText stack =
    ascii "Mode: Normal\nCycle Rate: 1 Hz\nRed: " ++ digit d.lamps.red ++ ascii "\nYellow: " ++
      digit d.lamps.yellow ++ ascii "\n" := by
  have harray : cstr ((d.modeArray stack).bytes ++ stack.behind) = ascii "Mode: Normal" := by
    have hbytes : (d.modeArray stack).bytes =
        ascii "Mode: Normal" ++ 0 :: stack.mode.bytes.drop 13 := by
      rw [Driver.modeArray, if_pos hmode, strscpy, if_neg (by decide),
        Buffer.overwrite_bytes _ _ _ (by decide)]
      rfl
    rw [hbytes, List.append_assoc, List.cons_append]
    exact cstr_append_zero _ _ (by decide)
  have hred (b : Bool) : Driver.shortText (ascii "Red: " ++ digit b) = ascii "Red: " ++ digit b := by
    cases b <;> decide
  have hyellow (b : Bool) :
      Driver.shortText (ascii "Yellow: " ++ digit b) = ascii "Yellow: " ++ digit b := by
    cases b <;> decide
  simp only [Driver.outputText, harray, hred, hyellow, Driver.gpioGetValue,
    List.append_assoc]
  rfl

/-- The first 23 bytes of the printed text are all that a read can take. -/
theorem outputMsg_take : (stack.outputMsg.snprintf 0 (d.outputText stack)).bytes.take 23 =
    ascii "Mode: Normal\nCycle Rate" := by
  have htext := outputText_normal d hmode stack
  have hdigit (b : Bool) : (digit b).length = 1 := by cases b <;> rfl
  have h1 : (ascii "Mode: Normal\nCycle Rate: 1 Hz\nRed: ").length = 35 := by decide
  have h2 : (ascii "\nYellow: ").length = 9 := by decide
  have h3 : (ascii "\n").length = 1 := by decide
  have hlen : (d.outputText stack).length = 47 := by
    rw [htext]
    simp only [List.length_append, hdigit, h1, h2, h3]
  have htake := Buffer.take_snprintf stack.outputMsg 0 (d.outputText stack) (by omega)
  rw [List.take_zero, List.nil_append, Nat.zero_add, hlen] at htake
  calc
    _ = ((stack.outputMsg.snprintf 0 (d.outputText stack)).bytes.take 47).take 23 := by
      rw [List.take_take, show min 23 47 = 23 from rfl]
    _ = (d.outputText stack).take 23 := by rw [htake]
    _ = _ := by
      rw [htext]
      rfl

theorem reader_serves : Serves (reader d) (fun _ => True) (fun r => r.size < 2^31) Request.size
    (ascii "Mode: Normal\nCycle Rate") where
  good _ _ _ _ _ := trivial
  bytes _ r p _ hr := myRead_bytes d r.stack r.size p _ hr (outputMsg_take d hmode r.stack)

/-- In the normal mode, the only one that the driver sets, the mode and the head of the next
line arrive. -/
theorem delivered_normal (reads : ℕ → Request) (hpos : ∀ n, 0 < (reads n).size)
    (hlt : ∀ n, (reads n).size < 2^31) :
    ∃ n, chunk (reader d) () reads n = [] ∧ (∀ i < n, chunk (reader d) () reads i ≠ []) ∧
      delivered (reader d) () reads n = ascii "Mode: Normal\nCycle Rate" :=
  delivers (reader_serves d hmode) (reader_advances d) () reads trivial hlt hpos

end NormalMode

end DevKota.Lab4
