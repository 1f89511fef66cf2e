import DevKota.Lab3Client

/-! The listing that the lab3 driver hands to its client, and what the client reads back. -/
namespace DevKota.Lab3
open CString Kernel SlotMap Runs

/-- The active timers in slot order. -/
def Driver.activeTimers (d : Driver) : List TimerInfo :=
  ((List.finRange maxTimers).map d.timers).filter fun t => t.Active

def listing (cfg : Config) (now : ℕ) (ts : List TimerInfo) : List Byte :=
  ts.flatMap (Driver.listingLine cfg now)

/-- `read(charFile, buffer, KERN_BUF - 1)` on a freshly opened device. -/
def clientRead (cfg : Config) (now : ℕ) (d : Driver) : List Byte :=
  (d.mytimerRead cfg now 149 0).2.1

/-- What `ktimer -l` prints for the bytes it read; `none` where it indexes its uninitialised
`buffer` outside the array. -/
def listBranch (buffer : Buffer 150) (bytes : List Byte) : Option (List Byte) :=
  if bytes.length < 4 ∨ 150 + 4 ≤ bytes.length then none
  else some (cstr ((buffer.overwrite 0 bytes).set (bytes.length-4) 0).bytes)

/-- The `-s` branch up to `strtok`: the text in front of the trailer and its two numbers. -/
def cutTrailer (buffer : Buffer 150) (bytes : List Byte) : Option (List Byte × ℤ × ℤ) :=
  if 150 ≤ bytes.length then none
  else
    let buffer := (buffer.overwrite 0 bytes).set bytes.length 0
    -- the text is taken to end with a trailer of four bytes
    let len := (cstr buffer.bytes).length
    if len < 4 then none
    else
      let cut := buffer.set (len-4) 0
      some (cstr cut.bytes, (cut.bytes.getD (len-3) 0).toNat - 48,
        (cut.bytes.getD (len-1) 0).toNat - 48)

/-- The token loop: whether some token's message is the argument, or `none` where `strrchr`
finds no space and its NULL is written to. -/
def tokenLoop (arg : List Byte) : List (List Byte) → Option Bool
  | [] => some false
  | token :: rest =>
    match beforeLast 32 token with
    | none => none
    | some m => if m = arg then some true else tokenLoop arg rest

inductive SetOutcome
  | updated
  | full
  | created
  deriving DecidableEq

/-- The decision of `ktimer -s`. -/
def setBranch (buffer : Buffer 150) (bytes arg : List Byte) : Option SetOutcome :=
  (cutTrailer buffer bytes).bind fun r =>
    (tokenLoop arg ((strtok 10 r.1).map Prod.fst)).map fun found =>
      if found then .updated else if r.2.1 ≥ r.2.2 then .full else .created

section Encode
variable (cfg : Config) (now : ℕ) (d : Driver)

theorem remaining_lt (t : TimerInfo) : Driver.remaining cfg now t < 10^10 := by
  have h := (t.timer.expires - jiffies now).isLt
  have hdiv := Nat.div_le_self (t.timer.expires - jiffies now).toNat cfg.HZ
  unfold Driver.remaining
  omega

theorem listingLine_length (t : TimerInfo) :
    (Driver.listingLine cfg now t).length =
      t.msg.length + (decimal (Driver.remaining cfg now t)).length + 2 := by
  simp only [Driver.listingLine, List.length_append]
  have h1 : (ascii " ").length = 1 := rfl
  have h2 : (ascii "\n").length = 1 := rfl
  omega

theorem listing_length (ts : List TimerInfo) :
    (listing cfg now ts).length =
      (ts.map fun t => t.msg.length + (decimal (Driver.remaining cfg now t)).length + 2).sum := by
  simp only [listing, List.length_flatMap, listingLine_length]

theorem zero_not_mem_listing (ts : List TimerInfo) : 0 ∉ listing cfg now ts := by
  intro h
  obtain ⟨t, -, ht⟩ := List.mem_flatMap.mp h
  have hdec := not_mem_decimal (Driver.remaining cfg now t) 0 (by decide)
  have hs : 0 ∉ ascii " " := by decide
  have hn : 0 ∉ ascii "\n" := by decide
  simp only [Driver.listingLine, List.mem_append] at ht
  rcases ht with ((ht | ht) | ht) | ht
  · exact zero_not_mem_msg t ht
  · exact hs ht
  · exact hdec ht
  · exact hn ht

/-- Two full lines fit the driver's buffer with room to spare. -/
theorem listing_length_le (h : Inv d) (l : List (Fin maxTimers)) :
    (listing cfg now ((l.map d.timers).filter fun t => t.Active)).length ≤ 139*l.length := by
  rw [listing_length]
  -- 127 bytes of message, 10 digits, a space and a newline
  have hline (t : TimerInfo) (ht : t ∈ (l.map d.timers).filter fun t => t.Active) :
      t.msg.length + (decimal (Driver.remaining cfg now t)).length + 2 ≤ 139 := by
    obtain ⟨k, -, rfl⟩ := List.mem_map.mp (List.mem_filter.mp ht).1
    have hm := msg_length_le _ (h.slot k).terminated
    have hd := decimal_length_le _ 10 (by decide) (remaining_lt cfg now (d.timers k))
    omega
  calc
    _ ≤ (((l.map d.timers).filter fun t => t.Active).map fun _ => 139).sum :=
      List.sum_le_sum hline
    _ = ((l.map d.timers).filter fun t => t.Active).length*139 := by simp
    _ ≤ 139*l.length := by
      have := List.length_filter_le (fun t : TimerInfo => decide t.Active) (l.map d.timers)
      rw [List.length_map] at this
      omega

/-- The loop of `prepare_read_msg` appends one line for each active slot. -/
theorem listing_fold (l : List (Fin maxTimers)) (b : Buffer 1000) (off : ℕ)
    (hl : off + (listing cfg now ((l.map d.timers).filter fun t => t.Active)).length < 1000) :
    let r := l.foldl (fun (acc : Buffer 1000 × ℕ) i =>
      if (d.timers i).Active then
        (acc.1.snprintf acc.2 (Driver.listingLine cfg now (d.timers i)),
          acc.2 + (Driver.listingLine cfg now (d.timers i)).length)
      else acc) (b,off)
    r.1.bytes.take r.2 =
        b.bytes.take off ++ listing cfg now ((l.map d.timers).filter fun t => t.Active) ∧
      r.2 = off + (listing cfg now ((l.map d.timers).filter fun t => t.Active)).length := by
  induction l generalizing b off with
  | nil => simp [listing]
  | cons k l ih =>
    rw [List.foldl_cons]
    by_cases hk : (d.timers k).Active
    · have hline : listing cfg now (((k :: l).map d.timers).filter fun t => t.Active) =
          Driver.listingLine cfg now (d.timers k) ++
            listing cfg now ((l.map d.timers).filter fun t => t.Active) := by
        simp [listing, hk]
      rw [hline, List.length_append] at hl
      have hrest := ih (b.snprintf off (Driver.listingLine cfg now (d.timers k)))
        (off + (Driver.listingLine cfg now (d.timers k)).length) (by omega)
      rw [if_pos hk, hline, List.length_append]
      refine ⟨?_, by rw [hrest.2]; omega⟩
      rw [hrest.1, Buffer.take_snprintf _ _ _ (by omega), List.append_assoc]
    · have hline : listing cfg now (((k :: l).map d.timers).filter fun t => t.Active) =
          listing cfg now ((l.map d.timers).filter fun t => t.Active) := by
        simp [hk]
      rw [if_neg hk, hline]
      exact ih b off (by rwa [hline] at hl)

theorem trailer_eq (h : Inv d) :
    d.trailer = [32, 48 + d.numberActiveTimers.toNat.toUInt8, 32,
        48 + d.allowedTimers.toNat.toUInt8] ∧
      0 ≤ d.numberActiveTimers ∧ d.numberActiveTimers < 10 ∧
      0 ≤ d.allowedTimers ∧ d.allowedTimers < 10 := by
  have hle := occupied_card_le d.slots
  have hc := h.count
  have hn : 0 ≤ d.numberActiveTimers ∧ d.numberActiveTimers < 10 := by
    change (occupied d.slots).card ≤ 2 at hle
    omega
  have ha : 0 ≤ d.allowedTimers ∧ d.allowedTimers < 10 := by
    rcases h.capacity with ha | ha <;> omega
  have hdigit (z : ℤ) (hz : 0 ≤ z ∧ z < 10) : decimalInt z = [48 + z.toNat.toUInt8] := by
    rw [decimalInt, if_neg (by omega), decimal_of_lt_ten _ (by omega)]
  refine ⟨?_, hn.1, hn.2, ha.1, ha.2⟩
  rw [Driver.trailer, hdigit _ hn, hdigit _ ha]
  rfl

theorem cstr_prepareReadMsg (h : Inv d) :
    cstr (d.prepareReadMsg cfg now).kernelOut.bytes =
      listing cfg now d.activeTimers ++ d.trailer := by
  have hle := listing_length_le cfg now d h (List.finRange maxTimers)
  change _ ≤ 139*2 at hle
  have htr := (trailer_eq d h).1
  obtain ⟨htake, hoff⟩ := listing_fold cfg now d (List.finRange maxTimers) d.kernelOut 0 (by omega)
  rw [List.take_zero, List.nil_append] at htake
  rw [Nat.zero_add] at hoff
  have hz : 0 ∉ d.trailer := by
    rw [htr]
    obtain ⟨-, hn0, hn, ha0, ha⟩ := trailer_eq d h
    have hdigit (z : ℤ) (hz : 0 ≤ z ∧ z < 10) : (0 : Byte) ≠ 48 + z.toNat.toUInt8 := by
      intro he
      have := isDigit_offset z.toNat (by omega)
      rw [← he] at this
      cases this
    simp only [List.mem_cons, List.not_mem_nil, or_false, not_or]
    exact ⟨by decide, hdigit _ ⟨hn0,hn⟩, by decide, hdigit _ ⟨ha0,ha⟩⟩
  have hlen : d.trailer.length = 4 := by rw [htr]; rfl
  unfold Driver.prepareReadMsg
  simp only
  rw [Buffer.cstr_snprintf _ _ _ (by rw [hoff]; omega) (by
    rw [htake]
    exact zero_not_mem_listing cfg now _) hz, htake]
  rfl

/-- What the client gets: the text, or its first 149 bytes. -/
theorem clientRead_eq (h : Inv d) :
    clientRead cfg now d = (listing cfg now d.activeTimers ++ d.trailer).take 149 := by
  have hlen : d.trailer.length = 4 := by rw [(trailer_eq d h).1]; rfl
  simp only [clientRead, Driver.mytimerRead, cstr_prepareReadMsg cfg now d h]
  rw [if_neg (by rw [List.length_append]; omega), List.drop_zero]

end Encode

section Decode

theorem cstr_set_cut (buffer : Buffer 150) (text rest : List Byte) (a : Byte) (hz : 0 ∉ text)
    (hb : buffer.bytes = text ++ a :: rest) :
    (buffer.set text.length 0).bytes = text ++ 0 :: rest ∧
      cstr (buffer.set text.length 0).bytes = text := by
  have hset : (buffer.set text.length 0).bytes = text ++ 0 :: rest := by
    rw [Buffer.set_bytes, hb, List.set_append_right _ _ (le_refl _), Nat.sub_self]
    rfl
  rw [hset]
  exact ⟨rfl, cstr_append_zero text rest hz⟩

/-- A whole listing is printed without its trailer. -/
theorem listBranch_whole (buffer : Buffer 150) (text : List Byte) (a b c e : Byte)
    (hz : 0 ∉ text) (hl : text.length + 4 ≤ 149) :
    listBranch buffer (text ++ [a,b,c,e]) = some text := by
  have hlen : (text ++ [a,b,c,e]).length = text.length + 4 := by simp
  have hhead := Buffer.overwrite_zero buffer (text ++ [a,b,c,e]) (by omega)
  rw [List.append_assoc] at hhead
  rw [listBranch, if_neg (by omega), hlen, Nat.add_sub_cancel,
    (cstr_set_cut _ text _ a hz hhead).2]

/-- What is printed of a listing of any length leaves out at least four bytes. -/
theorem listBranch_length (buffer : Buffer 150) (bytes out : List Byte)
    (h : listBranch buffer bytes = some out) : out.length + 4 ≤ bytes.length := by
  unfold listBranch at h
  split_ifs at h with hb
  obtain rfl := Option.some.inj h
  -- a NUL stands four bytes before the end, so the string ends there or earlier
  have hcut := cstr_set_length (buffer.overwrite 0 bytes).bytes (bytes.length-4)
    (by rw [Buffer.length_eq]; omega)
  rw [Buffer.set_bytes]
  omega

/-- The trailer of a whole listing gives back the text and the two numbers. -/
theorem cutTrailer_whole (buffer : Buffer 150) (text : List Byte) (b e : Byte)
    (hz : 0 ∉ text) (hb : b ≠ 0) (he : e ≠ 0) (hl : text.length + 4 ≤ 149) :
    cutTrailer buffer (text ++ [32,b,32,e]) =
      some (text, (b.toNat:ℤ) - 48, (e.toNat:ℤ) - 48) := by
  have hlen : (text ++ [32,b,32,e]).length = text.length + 4 := by simp
  have hb150 := buffer.length_eq
  -- there is a byte behind the text for the NUL
  obtain ⟨x, rest, hrest⟩ : ∃ x rest, buffer.bytes.drop (text.length+4) = x :: rest := by
    cases hd : buffer.bytes.drop (text.length+4) with
    | nil =>
      have := List.drop_eq_nil_iff.mp hd
      omega
    | cons x rest => exact ⟨x, rest, rfl⟩
  have hhead := Buffer.overwrite_zero buffer (text ++ [32,b,32,e]) (by omega)
  rw [hlen, hrest] at hhead
  have hz' : 0 ∉ text ++ [32,b,32,e] := by
    simp only [List.mem_append, List.mem_cons, List.not_mem_nil, or_false, not_or]
    exact ⟨hz, by decide, Ne.symm hb, by decide, Ne.symm he⟩
  obtain ⟨hend, hcstr⟩ := cstr_set_cut (buffer.overwrite 0 (text ++ [32,b,32,e]))
    (text ++ [32,b,32,e]) rest x hz' hhead
  rw [List.append_assoc] at hend
  obtain ⟨hcut, hcutc⟩ := cstr_set_cut _ text _ 32 hz hend
  rw [cutTrailer, if_neg (by omega)]
  simp only [hcstr]
  rw [hlen] at hcut hcutc ⊢
  rw [if_neg (by omega), Nat.add_sub_cancel, hcutc, hcut]
  have h1 : text.length + 4 - 3 = text.length + 1 := by omega
  have h3 : text.length + 4 - 1 = text.length + 3 := by omega
  rw [h1, h3]
  simp [List.getD_eq_getElem?_getD]

theorem strtok_listing (cfg : Config) (now : ℕ) (ts : List TimerInfo) (h : ∀ t ∈ ts, 10 ∉ t.msg) :
    (strtok 10 (listing cfg now ts)).map Prod.fst =
      ts.map fun t => t.msg ++ 32 :: decimal (Driver.remaining cfg now t) := by
  induction ts with
  | nil => rfl
  | cons t ts ih =>
    have hline : listing cfg now (t :: ts) =
        (t.msg ++ 32 :: decimal (Driver.remaining cfg now t)) ++ 10 :: listing cfg now ts := by
      simp [listing, Driver.listingLine, ascii]
    have hn : 10 ∉ t.msg ++ 32 :: decimal (Driver.remaining cfg now t) := by
      simp only [List.mem_append, List.mem_cons, not_or]
      exact ⟨h t (by simp), by decide, not_mem_decimal _ 10 (by decide)⟩
    rw [hline, strtok_line 10 _ _ hn (by simp), List.map_cons, List.map_cons,
      ih fun u hu => h u (List.mem_cons_of_mem _ hu)]

/-- Each line of newline-free messages holds one newline, its end. -/
theorem listing_count (cfg : Config) (now : ℕ) (ts : List TimerInfo) (h : ∀ t ∈ ts, 10 ∉ t.msg) :
    (listing cfg now ts).count 10 = ts.length := by
  induction ts with
  | nil => rfl
  | cons t ts ih =>
    have hm := List.count_eq_zero.mpr (h t (by simp))
    have hd := List.count_eq_zero.mpr
      (not_mem_decimal (Driver.remaining cfg now t) 10 (by decide))
    have hs : (ascii " ").count 10 = 0 := by decide
    have hn : (ascii "\n").count 10 = 1 := by decide
    have hts := ih fun u hu => h u (List.mem_cons_of_mem _ hu)
    rw [listing, List.flatMap_cons, ← listing, List.count_append, hts, Driver.listingLine,
      List.count_append, List.count_append, List.count_append, List.length_cons]
    omega

/-- The token loop on lines finds the argument exactly among their messages. -/
theorem tokenLoop_lines (arg : List Byte) (ls : List (List Byte × List Byte))
    (h : ∀ l ∈ ls, 32 ∉ l.2) :
    tokenLoop arg (ls.map fun l => l.1 ++ 32 :: l.2) = some (decide (arg ∈ ls.map Prod.fst)) := by
  induction ls with
  | nil => rfl
  | cons l ls ih =>
    rw [List.map_cons, tokenLoop, beforeLast_append 32 l.1 l.2 (h l (by simp))]
    by_cases hm : l.1 = arg
    · simp [hm]
    · have hm' : arg ≠ l.1 := fun he => hm he.symm
      simp only [hm, if_false]
      rw [ih fun u hu => h u (List.mem_cons_of_mem _ hu)]
      simp [hm']

end Decode

/-- Both branches of the client read back what the driver holds, whatever their stack
buffers contained: the listing, one line for each timer, without the trailer; the messages
and the two numbers; and the decision of `-s` for each argument. -/
structure Decodes (cfg : Config) (now : ℕ) (d : Driver) : Prop where
  printed (buffer : Buffer 150) :
    listBranch buffer (clientRead cfg now d) = some (listing cfg now d.activeTimers)
  lines : (listing cfg now d.activeTimers).count 10 = d.activeTimers.length
  parsed (buffer : Buffer 150) : ∃ text,
    cutTrailer buffer (clientRead cfg now d) = some (text, d.numberActiveTimers, d.allowedTimers) ∧
      (strtok 10 text).map (fun t => beforeLast 32 t.1) = d.activeTimers.map fun t => some t.msg
  decided (buffer : Buffer 150) (arg : Arg) :
    setBranch buffer (clientRead cfg now d) arg.text =
      some (if arg.text ∈ d.activeTimers.map TimerInfo.msg then .updated
        else if d.numberActiveTimers ≥ d.allowedTimers then .full else .created)

section Main
variable (cfg : Config) (now : ℕ) (d : Driver)

theorem decodes_of_short (h : Inv d) (hl : (listing cfg now d.activeTimers).length ≤ 145)
    (hn : ∀ t ∈ d.activeTimers, 10 ∉ t.msg) : Decodes cfg now d := by
  obtain ⟨htr, hn0, hn10, ha0, ha10⟩ := trailer_eq d h
  have hz := zero_not_mem_listing cfg now d.activeTimers
  -- with the trailer the text has at most 149 bytes and is read whole
  have hread : clientRead cfg now d = listing cfg now d.activeTimers ++ d.trailer := by
    rw [clientRead_eq cfg now d h, List.take_of_length_le]
    rw [List.length_append, htr]
    simpa using hl
  have hdigit (z : ℤ) (hz0 : 0 ≤ z) (hz10 : z < 10) :
      (48 + z.toNat.toUInt8 : Byte) ≠ 0 ∧ ((48 + z.toNat.toUInt8 : Byte).toNat:ℤ) - 48 = z := by
    interval_cases z <;> decide
  have hcut (buffer : Buffer 150) : cutTrailer buffer (clientRead cfg now d) =
      some (listing cfg now d.activeTimers, d.numberActiveTimers, d.allowedTimers) := by
    rw [hread, htr, cutTrailer_whole buffer _ _ _ hz (hdigit _ hn0 hn10).1 (hdigit _ ha0 ha10).1
      (by omega), (hdigit _ hn0 hn10).2, (hdigit _ ha0 ha10).2]
  have htok := strtok_listing cfg now d.activeTimers hn
  have hnum (t : TimerInfo) : 32 ∉ decimal (Driver.remaining cfg now t) :=
    not_mem_decimal _ 32 (by decide)
  refine ⟨fun buffer => ?_, ?_, fun buffer => ⟨_, hcut buffer, ?_⟩, fun buffer arg => ?_⟩
  · rw [hread, htr]
    exact listBranch_whole buffer _ _ _ _ _ hz (by omega)
  · exact listing_count cfg now _ hn
  · calc
      _ = ((strtok 10 (listing cfg now d.activeTimers)).map Prod.fst).map (beforeLast 32) := by simp
      _ = _ := by
        rw [htok, List.map_map]
        refine List.map_congr_left fun t _ => ?_
        exact beforeLast_append 32 t.msg _ (hnum t)
  · have hloop := tokenLoop_lines arg.text
      (d.activeTimers.map fun t => (t.msg, decimal (Driver.remaining cfg now t))) (by
        intro l hl
        obtain ⟨t, -, rfl⟩ := List.mem_map.mp hl
        exact hnum t)
    rw [List.map_map, List.map_map] at hloop
    have hmsgs : (fun l : List Byte × List Byte => l.1) ∘
        (fun t : TimerInfo => (t.msg, decimal (Driver.remaining cfg now t))) = TimerInfo.msg := rfl
    simp only [setBranch, hcut, Option.bind_some, htok]
    rw [show (fun t : TimerInfo => t.msg ++ 32 :: decimal (Driver.remaining cfg now t)) =
      (fun l : List Byte × List Byte => l.1 ++ 32 :: l.2) ∘
        (fun t : TimerInfo => (t.msg, decimal (Driver.remaining cfg now t))) from rfl, hloop, hmsgs]
    simp only [Option.map_some, decide_eq_true_eq]

/-- What the decoding needs: no line is cut in two by its own message, and none is cut off. -/
theorem short_of_decodes (h : Inv d) (hd : Decodes cfg now d) :
    (listing cfg now d.activeTimers).length ≤ 145 ∧ ∀ t ∈ d.activeTimers, 10 ∉ t.msg := by
  constructor
  · -- what is printed lacks four of at most 149 bytes
    have hout := listBranch_length (Buffer.zero 150) _ _ (hd.printed (Buffer.zero 150))
    have hread := congrArg List.length (clientRead_eq cfg now d h)
    rw [List.length_take] at hread
    omega
  · -- each message is a part of a token, and tokens hold no newline
    intro t ht
    obtain ⟨text, -, hparsed⟩ := hd.parsed (Buffer.zero 150)
    have hmem : some t.msg ∈ (strtok 10 text).map fun t => beforeLast 32 t.1 := by
      rw [hparsed]
      exact List.mem_map_of_mem (f := fun t : TimerInfo => some t.msg) ht
    obtain ⟨token, htoken, hbefore⟩ := List.mem_map.mp hmem
    intro hnl
    exact not_mem_strtok 10 text token htoken (beforeLast_subset 32 _ _ hbefore hnl)

end Main

/-- The client decodes the listing of a reachable driver state exactly when the lines of the
active timers have at most 145 bytes together and no active message contains a newline. -/
theorem client_decodes_iff (cfg : Config) (load now : ℕ) (s : State)
    (h : Reach (step cfg) MsgFits (loaded load) s) :
    Decodes cfg now s.driver ↔
      (s.driver.activeTimers.map fun t =>
        t.msg.length + (decimal (Driver.remaining cfg now t)).length + 2).sum ≤ 145 ∧
      ∀ t ∈ s.driver.activeTimers, 10 ∉ t.msg := by
  have hinv := inv_reach cfg load s h
  rw [← listing_length]
  constructor
  · intro hd
    exact short_of_decodes cfg now s.driver hinv hd
  · intro hcond
    obtain ⟨hl, hn⟩ := hcond
    exact decodes_of_short cfg now s.driver hinv hl hn

set_option maxRecDepth 8192 in
theorem client_decodes_iff_run : ∃ s, Reach (step sampleConfig) MsgFits (loaded 0) s ∧
    s.driver.numberActiveTimers = 2 ∧ Decodes sampleConfig 250 s.driver := by
  obtain ⟨s, hs, hp⟩ := exists_reach_of_run (step sampleConfig) (loaded 0) msgFits_of_check
    [sampleWrite 7 (by decide) "-m 2 x", sampleWrite 7 (by decide) "-s 5 bob",
      sampleWrite 8 (by decide) "-s 60 alice b"]
    (fun s => s.driver.numberActiveTimers = 2 ∧
      (s.driver.activeTimers.map fun t =>
        t.msg.length + (decimal (Driver.remaining sampleConfig 250 t)).length + 2).sum ≤ 145 ∧
      ∀ t ∈ s.driver.activeTimers, 10 ∉ t.msg)
    (by decide)
  obtain ⟨hn, hcond⟩ := of_decide_eq_true hp
  exact ⟨s, hs, hn, (client_decodes_iff sampleConfig 0 250 s hs).mpr hcond⟩

set_option maxRecDepth 8192 in
/-- A message with a newline is not read back. -/
theorem client_misreads_newline : ¬ ∀ (cfg : Config) (load now : ℕ) (s : State),
    Reach (step cfg) MsgFits (loaded load) s → Decodes cfg now s.driver := by
  intro hall
  obtain ⟨s, hs, hp⟩ := exists_reach_of_run (step sampleConfig) (loaded 0) msgFits_of_check
    [sampleWrite 7 (by decide) "-s 5 a\nb"]
    (fun s => ¬ ∀ t ∈ s.driver.activeTimers, 10 ∉ t.msg) (by decide)
  have hd := (client_decodes_iff sampleConfig 0 0 s hs).mp (hall sampleConfig 0 0 s hs)
  exact (of_decide_eq_true hp) hd.2

end DevKota.Lab3
