import DevKota.Lab3Listing
import DevKota.ChunkedReads

/-! Reading the lab3 listing in pieces, and the room it takes in the driver's buffer. -/
namespace DevKota.Lab3
open CString Kernel SlotMap Runs ChunkedReads

/-- The seconds that are shown for a timer: those up to its deadline, in a 32-bit word. -/
def shownSeconds (cfg : Config) (now : ℕ) (t : TimerInfo) : ℕ :=
  (((t.timer.due : ℤ) - now) % 2^32).toNat / cfg.HZ

/-- A line as it should read: the message, a blank, the seconds, a newline. -/
def lineText (cfg : Config) (now : ℕ) (t : TimerInfo) : List Byte :=
  t.msg ++ 32 :: decimal (shownSeconds cfg now t) ++ [10]

namespace Driver
variable (cfg : Config) (now : ℕ) (d : Driver)

/-- The lines of the active ones among some slots. -/
def slotsText (l : List (Fin maxTimers)) : List Byte :=
  ((l.map d.timers).filter fun t => t.Active).flatMap (lineText cfg now)

/-- The last line as it should read: the number of active timers and the capacity. -/
def trailerText : List Byte :=
  32 :: decimal d.activeTimers.length ++ 32 :: decimalInt d.allowedTimers

/-- The whole listing as it should read. -/
def listingText : List Byte := d.slotsText cfg now (List.finRange maxTimers) ++ d.trailerText

/-- One pass of the loop of `prepare_read_msg`, on the buffer and the running offset. -/
def readPass (acc : Buffer 1000 × ℕ) (i : Fin maxTimers) : Buffer 1000 × ℕ :=
  if (d.timers i).Active then
    (acc.1.snprintf acc.2 (listingLine cfg now (d.timers i)),
      acc.2 + (listingLine cfg now (d.timers i)).length)
  else acc

/-- The offset after the passes over some slots. -/
def readOffset (l : List (Fin maxTimers)) : ℕ := (l.foldl (d.readPass cfg now) (d.kernelOut,0)).2

theorem prepareReadMsg_eq : d.prepareReadMsg cfg now = { d with
    kernelOut := ((List.finRange maxTimers).foldl (d.readPass cfg now) (d.kernelOut,0)).1.snprintf
      (d.readOffset cfg now (List.finRange maxTimers)) d.trailer } := rfl

/-- The offset of `prepare_read_msg` is the length of the text so far, and every line, and the
last one, ends with its NUL inside `kernel_out`. -/
structure NoCut : Prop where
  offset (l : List (Fin maxTimers)) : l <+: List.finRange maxTimers →
    d.readOffset cfg now l = (d.slotsText cfg now l).length
  line (l : List (Fin maxTimers)) (i : Fin maxTimers) : l ++ [i] <+: List.finRange maxTimers →
    (d.timers i).Active → d.readOffset cfg now l + (lineText cfg now (d.timers i)).length < 1000
  trailer : d.readOffset cfg now (List.finRange maxTimers) + d.trailerText.length < 1000

end Driver

/-- One `read` of the device: the instant and the size that is asked for. -/
structure ReadCall where
  now : ℕ
  count : ℕ

def reader (cfg : Config) : Reader Driver ReadCall Byte :=
  fun d r pos => d.mytimerRead cfg r.now r.count pos

section Text
variable (cfg : Config) (now : ℕ) (d : Driver)

/-- The counter is the number of active slots. -/
theorem activeTimers_length (h : Inv d) : (d.activeTimers.length : ℤ) = d.numberActiveTimers := by
  rw [h.count, Nat.cast_inj]
  have hslot (k : Fin maxTimers) : (d.slots k).isSome = true ↔ (d.timers k).Active := by
    rw [Option.isSome_iff_ne_none]
    exact not_iff_comm.mp (slot_eq_none _).symm
  have hfin : List.finRange maxTimers = [0,1] := rfl
  have huniv : (Finset.univ : Finset (Fin maxTimers)) = {0,1} := rfl
  simp only [Driver.activeTimers, occupied, hslot, hfin, huniv, List.map_cons, List.map_nil]
  by_cases h0 : (d.timers 0).Active <;> by_cases h1 : (d.timers 1).Active <;>
    simp [h0, h1, Finset.filter_insert, Finset.filter_singleton]

/-- The driver prints the lines as they should read. -/
theorem listingLine_text (h : Inv d) (k : Fin maxTimers) (hk : (d.timers k).Active) :
    Driver.listingLine cfg now (d.timers k) = lineText cfg now (d.timers k) := by
  have hexp := (h.slot k).expires ((h.slot k).active_iff_pending.mp hk)
  have hword : ((d.timers k).timer.expires - jiffies now).toNat =
      (((d.timers k).timer.due : ℤ) - now) % 2^32 := by
    rw [hexp, jiffies_eq, jiffies_eq]
    exact WrappedClock.shown_sub_toNat 32 _ _
  have hsec : Driver.remaining cfg now (d.timers k) = shownSeconds cfg now (d.timers k) := by
    rw [Driver.remaining, shownSeconds, ← hword, Int.toNat_natCast]
  have hblank : ascii " " = [32] := rfl
  have hnewline : ascii "\n" = [10] := rfl
  rw [Driver.listingLine, hsec, hblank, hnewline, lineText, List.append_assoc (d.timers k).msg]
  rfl

theorem listing_text (h : Inv d) (l : List (Fin maxTimers)) :
    listing cfg now ((l.map d.timers).filter fun t => t.Active) = d.slotsText cfg now l := by
  apply List.flatMap_congr
  intro t ht
  obtain ⟨hmem, hact⟩ := List.mem_filter.mp ht
  obtain ⟨k, -, rfl⟩ := List.mem_map.mp hmem
  exact listingLine_text cfg now d h k (of_decide_eq_true hact)

theorem trailer_text (h : Inv d) : d.trailer = d.trailerText := by
  have hn : decimalInt d.numberActiveTimers = decimal d.activeTimers.length := by
    rw [← activeTimers_length d h, decimalInt, if_neg (by omega), Int.toNat_natCast]
  have hblank : ascii " " = [32] := rfl
  rw [Driver.trailer, hn, hblank, List.append_assoc ([32] ++ decimal d.activeTimers.length)]
  rfl

theorem driver_text (h : Inv d) : listing cfg now d.activeTimers ++ d.trailer =
    d.listingText cfg now := by
  rw [Driver.activeTimers, listing_text cfg now d h, trailer_text d h, Driver.listingText]

/-- The listing only changes with the seconds that are shown. -/
theorem listingText_same (now' : ℕ)
    (hsame : ∀ t ∈ d.activeTimers, shownSeconds cfg now' t = shownSeconds cfg now t) :
    d.listingText cfg now' = d.listingText cfg now := by
  have hlines : d.slotsText cfg now' (List.finRange maxTimers) =
      d.slotsText cfg now (List.finRange maxTimers) := by
    apply List.flatMap_congr
    intro t ht
    rw [lineText, lineText, hsame t ht]
  rw [Driver.listingText, Driver.listingText, hlines]

theorem reader_advances : Advances (reader cfg) 1000 := by
  intro d r pos hpos
  have hlen : (cstr (d.prepareReadMsg cfg r.now).kernelOut.bytes).length ≤ 1000 := by
    calc
      _ ≤ (d.prepareReadMsg cfg r.now).kernelOut.bytes.length :=
        (List.takeWhile_sublist _).length_le
      _ = 1000 := (d.prepareReadMsg cfg r.now).kernelOut.length_eq
  simp only [reader, Driver.mytimerRead]
  split_ifs with hend
  · exact ⟨by simp, hpos⟩
  · refine ⟨by simp, ?_⟩
    change pos + min r.count (_ - pos) ≤ 1000
    omega

/-- Reads change nothing but the buffer, and what it held before does not show. -/
theorem reader_serves (h : Inv d) : Serves (reader cfg)
    (fun d' => ∃ b, d' = { d with kernelOut := b })
    (fun r => ∀ t ∈ d.activeTimers, shownSeconds cfg r.now t = shownSeconds cfg now t)
    ReadCall.count (d.listingText cfg now) where
  good _ r _ hd _ := by
    obtain ⟨b, rfl⟩ := hd
    refine ⟨?_, ?_⟩
    · exact (Driver.prepareReadMsg cfg r.now { d with kernelOut := b }).kernelOut
    · exact mytimerRead_fst cfg r.now _ r.count _
  bytes _ r p hd hr := by
    obtain ⟨b, rfl⟩ := hd
    have hinv := (inv_of_eq d { d with kernelOut := b } h rfl rfl rfl).1
    have htext : cstr (Driver.prepareReadMsg cfg r.now { d with kernelOut := b }).kernelOut.bytes =
        d.listingText cfg now := by
      rw [cstr_prepareReadMsg cfg r.now _ hinv, driver_text cfg r.now _ hinv,
        ← listingText_same cfg now d r.now hr]
      rfl
    simp only [reader, Driver.mytimerRead, htext]
    split_ifs with hend
    · rw [List.drop_of_length_le hend, List.take_nil]
    · rfl

end Text

section Room
variable (cfg : Config) (now : ℕ) (d : Driver)

theorem readOffset_eq (h : Inv d) (l : List (Fin maxTimers)) (hl : l.length ≤ 2) :
    d.readOffset cfg now l = (d.slotsText cfg now l).length ∧
      (d.slotsText cfg now l).length ≤ 139*l.length := by
  have hle := listing_length_le cfg now d h l
  have hfold := (listing_fold cfg now d l d.kernelOut 0 (by omega)).2
  rw [Nat.zero_add, listing_text cfg now d h l] at hfold
  rw [listing_text cfg now d h l] at hle
  exact ⟨hfold, hle⟩

/-- Two lines of at most 139 bytes and a trailer of four stay far below the buffer's 1000. -/
theorem noCut_of_inv (h : Inv d) : d.NoCut cfg now where
  offset l hpre := by
    have hlen := hpre.length_le
    rw [List.length_finRange] at hlen
    exact (readOffset_eq cfg now d h l hlen).1
  line l i hpre hact := by
    have hmax : maxTimers = 2 := rfl
    have hlen := hpre.length_le
    rw [List.length_append, List.length_singleton, List.length_finRange] at hlen
    obtain ⟨hoff, hle⟩ := readOffset_eq cfg now d h l (by omega)
    have hm := msg_length_le _ (h.slot i).terminated
    have hdig := decimal_length_le _ 10 (by decide) (remaining_lt cfg now (d.timers i))
    rw [← listingLine_text cfg now d h i hact, listingLine_length]
    omega
  trailer := by
    obtain ⟨hoff, hle⟩ := readOffset_eq cfg now d h (List.finRange maxTimers) (by decide)
    have htr : d.trailerText.length = 4 := by
      rw [← trailer_text d h, (trailer_eq d h).1]
      rfl
    have hmax : maxTimers = 2 := rfl
    rw [List.length_finRange] at hle
    omega

end Room

/-- Whatever the buffer held, reads of any positive sizes from offset 0 deliver the listing
exactly once up to the first one that returns nothing, each as many bytes as it asked for
or as were left, and nothing printed on the way is cut. -/
theorem chunked_reads_deliver (cfg : Config) (load : ℕ) (s : State)
    (h : Reach (step cfg) MsgFits (loaded load) s) (kernelOut : Buffer 1000)
    (reads : ℕ → ReadCall) (hpos : ∀ n, 0 < (reads n).count)
    (hsame : ∀ n, ∀ t ∈ s.driver.activeTimers,
      shownSeconds cfg (reads n).now t = shownSeconds cfg s.now t) :
    (∃ n, chunk (reader cfg) { s.driver with kernelOut := kernelOut } reads n = [] ∧
      (∀ i < n, chunk (reader cfg) { s.driver with kernelOut := kernelOut } reads i ≠ []) ∧
      delivered (reader cfg) { s.driver with kernelOut := kernelOut } reads n =
        s.driver.listingText cfg s.now) ∧
    (∀ n, (chunk (reader cfg) { s.driver with kernelOut := kernelOut } reads n).length =
      min (reads n).count ((s.driver.listingText cfg s.now).length -
        (delivered (reader cfg) { s.driver with kernelOut := kernelOut } reads n).length)) ∧
    ∀ n, Driver.NoCut cfg (reads n).now
      (cursor (reader cfg) { s.driver with kernelOut := kernelOut } reads n).1 := by
  have hinv := inv_reach cfg load s h
  have hserves := reader_serves cfg s.now s.driver hinv
  have hadv := reader_advances cfg
  refine ⟨?_, fun n => ?_, fun n => ?_⟩
  · exact delivers hserves hadv _ reads ⟨kernelOut, rfl⟩ hsame hpos
  · rw [chunk_eq hserves _ reads ⟨kernelOut, rfl⟩ hsame n, delivered_length hadv,
      List.length_take, List.length_drop]
  · obtain ⟨b, hb⟩ := cursor_good hserves _ reads ⟨kernelOut, rfl⟩ hsame n
    rw [hb]
    have hinvb := (inv_of_eq s.driver { s.driver with kernelOut := b } hinv rfl rfl rfl).1
    exact noCut_of_inv cfg (reads n).now _ hinvb

set_option maxRecDepth 8192 in
/-- Reads of 3 and of 70 bytes by turns, over a buffer full of `x`. -/
theorem chunked_reads_deliver_run : ∃ s, Reach (step sampleConfig) MsgFits (loaded 0) s ∧
    s.driver.listingText sampleConfig s.now = ascii "bob 5\nalice b 60\n 2 2" ∧
    ∃ n, delivered (reader sampleConfig)
      { s.driver with kernelOut := ⟨List.replicate 1000 120, List.length_replicate⟩ }
      (fun i => ⟨s.now, if i%2 = 0 then 3 else 70⟩) n = ascii "bob 5\nalice b 60\n 2 2" := by
  obtain ⟨s, hs, hp⟩ := exists_reach_of_run (step sampleConfig) (loaded 0) msgFits_of_check
    [sampleWrite 7 (by decide) "-m 2 x", sampleWrite 7 (by decide) "-s 5 bob",
      sampleWrite 8 (by decide) "-s 60 alice b"]
    (fun s => s.driver.listingText sampleConfig s.now = ascii "bob 5\nalice b 60\n 2 2")
    (by decide)
  have htext := of_decide_eq_true hp
  obtain ⟨⟨n, -, -, hn⟩, -⟩ := chunked_reads_deliver sampleConfig 0 s hs
    ⟨List.replicate 1000 120, List.length_replicate⟩ (fun i => ⟨s.now, if i%2 = 0 then 3 else 70⟩)
    (fun i => by
      change 0 < if i%2 = 0 then 3 else 70
      split_ifs <;> decide)
    (fun _ _ _ => rfl)
  exact ⟨s, hs, htext, n, hn.trans htext⟩

end DevKota.Lab3
