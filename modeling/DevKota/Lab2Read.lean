import DevKota.Lab2Failure
import DevKota.ChunkedReads

/-! Reading the lab2 device, and what the client takes from what it reads. -/
namespace DevKota.Lab2
open CString Kernel Runs

/-- The bytes that a read copies out, its return value and the new file position. -/
structure ReadResult where
  bytes : List Byte
  ret : ℤ
  pos : ℕ

namespace Driver

/-- What `timer_read` hands out. The flag is put over the last newline of the listing, with a
newline behind it; without a listing it stands alone, in a block of its own. -/
def readText (cfg : Config) (now : ℕ) (d : Driver) (alloc alloc' : Bool) : Option (List Byte) :=
  (d.getActiveTimers cfg now alloc).bind fun message =>
    d.checkForRoom.bind fun hasRoom =>
      match message with
      | some message => some ((cstr message).dropLast ++ [hasRoom, 10])
      -- the result of this `kmalloc` is not looked at
      | none => if alloc' then some [hasRoom] else none

/-- `timer_read`, with the outcomes of its two allocations. -/
def timerRead (cfg : Config) (now : ℕ) (d : Driver) (mapped : Bool) (count pos : ℕ)
    (alloc alloc' : Bool) : Option ReadResult :=
  if d.gTimers = none then
    -- one NUL, and the position stays
    some (if mapped then ⟨[0], 1, pos⟩ else ⟨[], -EFAULT, pos⟩)
  else
    (d.readText cfg now alloc alloc').map fun message =>
      let len := message.length
      if len ≤ pos then ⟨[], 0, 0⟩
      else
        let count := min count (len-pos)
        if mapped then ⟨(message.drop pos).take count, count, pos + count⟩
        else ⟨[], -EFAULT, pos⟩

end Driver

/-- The client's `read(fd, buffer, BUFFER_SIZE - 1)` on a freshly opened device. -/
def clientRead (cfg : Config) (now : ℕ) (d : Driver) (alloc alloc' : Bool) : Option ReadResult :=
  d.timerRead cfg now true 127 0 alloc alloc'

/-- `has_room = buffer[bytes_read - 2]`, and the two stores that end the text in front of it;
`none` where an index is outside the array. -/
def popFlag (buffer : Buffer 128) (bytesRead : ℕ) : Option (Byte × Buffer 128) :=
  if 2 ≤ bytesRead ∧ bytesRead < 128 then
    some (buffer.bytes.getD (bytesRead-2) 0, (buffer.set (bytesRead-2) 10).set (bytesRead-1) 0)
  else none

/-- The decoding of `ktimer -l`, with what `buffer` held before the read. -/
def listDecode (buffer : Buffer 128) (bytes : List Byte) : Option (Byte × Buffer 128) :=
  popFlag ((buffer.overwrite 0 bytes).set bytes.length 0) bytes.length

/-- The decoding of `ktimer -s`, which closes the buffer last. -/
def setDecode (buffer : Buffer 128) (bytes : List Byte) : Option (Byte × Buffer 128) :=
  (popFlag (buffer.overwrite 0 bytes) bytes.length).map fun r => (r.1, r.2.set bytes.length 0)

/-- The text of a message. -/
def Pointer.text : Pointer → List Byte
  | .block _ text => text
  | _ => []

def lineLength (cfg : Config) (now : ℕ) (s : MsgTimer) : ℕ :=
  s.message.text.length + (decimalInt (Driver.remaining cfg now s)).length + 2

/-- Some timer is active, every active timer has its message, and with the flag behind them
their lines fit the client's read of 127 bytes. -/
def FitsRead (cfg : Config) (now : ℕ) (d : Driver) : Prop :=
  ∃ slots, d.current = some slots ∧ (∀ s ∈ slots, s.Active → s.message ≠ .null) ∧
    (∃ s ∈ slots, s.Active) ∧
    ((slots.filter fun s => s.Active).map (lineLength cfg now)).sum ≤ 126

section Decode

theorem popFlag_eq (buffer : Buffer 128) (text rest : List Byte) (a b : Byte)
    (hl : text.length+2 < 128) (h : buffer.bytes = text ++ a :: b :: rest) :
    ∃ buffer', popFlag buffer (text.length+2) = some (a, buffer') ∧
      buffer'.bytes = text ++ 10 :: 0 :: rest := by
  have hset (x : Byte) : (text ++ a :: b :: rest).set text.length x = text ++ x :: b :: rest := by
    rw [List.set_append_right _ _ (le_refl _), Nat.sub_self]
    rfl
  have hset' (x : Byte) : (text ++ x :: b :: rest).set (text.length+1) 0 = text ++ x :: 0 :: rest := by
    rw [List.set_append_right _ _ (by omega), Nat.add_sub_cancel_left]
    rfl
  refine ⟨(buffer.set text.length 10).set (text.length+1) 0, ?_, ?_⟩
  · rw [popFlag, if_pos ⟨by omega, hl⟩, h]
    simp
  · rw [Buffer.set_bytes, Buffer.set_bytes, h, hset, hset']

/-- Both decodings do the same with a read of at most 127 bytes. -/
theorem setDecode_eq (buffer : Buffer 128) (bytes : List Byte) :
    setDecode buffer bytes = listDecode buffer bytes := by
  unfold setDecode listDecode popFlag
  split_ifs with hn
  · have hflag : ((buffer.overwrite 0 bytes).set bytes.length 0).bytes.getD (bytes.length-2) 0 =
        (buffer.overwrite 0 bytes).bytes.getD (bytes.length-2) 0 := by
      rw [Buffer.set_bytes, List.getD_eq_getElem?_getD, List.getD_eq_getElem?_getD,
        List.getElem?_set_ne (by omega)]
    have hbytes (b : Buffer 128) : ((b.set (bytes.length-2) 10).set (bytes.length-1) 0).set
        bytes.length 0 = ((b.set bytes.length 0).set (bytes.length-2) 10).set (bytes.length-1) 0 := by
      unfold Buffer.set
      simp only [Buffer.mk.injEq]
      rw [List.set_comm 0 10 (by omega), List.set_comm 0 0 (by omega)]
    rw [Option.map_some, hflag, hbytes]
  · rfl

/-- A flag and a newline at the end of a read become the newline and a NUL. -/
theorem listDecode_whole (buffer : Buffer 128) (text : List Byte) (flag : Byte) (hz : 0 ∉ text)
    (hl : text.length+2 < 128) :
    ∃ buffer', listDecode buffer (text ++ [flag,10]) = some (flag, buffer') ∧
      cstr buffer'.bytes = text ++ [10] := by
  have hlen : (text ++ [flag,10]).length = text.length+2 := by simp
  have hhead : ((buffer.overwrite 0 (text ++ [flag,10])).set (text.length+2) 0).bytes =
      text ++ flag :: 10 :: (buffer.bytes.drop (text.length+2)).set 0 0 := by
    rw [Buffer.set_bytes, Buffer.overwrite_zero _ _ (by omega), hlen,
      List.set_append_right _ _ (by omega), hlen, Nat.sub_self, List.append_assoc]
    rfl
  obtain ⟨buffer', hpop, hbytes⟩ := popFlag_eq _ text _ flag 10 hl hhead
  refine ⟨buffer', by rw [listDecode, hlen, hpop], ?_⟩
  have hz' : 0 ∉ text ++ [10] := by
    rw [List.mem_append, not_or]
    exact ⟨hz, by decide⟩
  rw [hbytes, List.append_cons, cstr_append_zero _ _ hz']

/-- Whatever was read, what is left to print is shorter than the read. -/
theorem listDecode_length (buffer : Buffer 128) (bytes : List Byte) (flag : Byte)
    (buffer' : Buffer 128) (h : listDecode buffer bytes = some (flag, buffer')) :
    2 ≤ bytes.length ∧ (cstr buffer'.bytes).length < bytes.length := by
  unfold listDecode popFlag at h
  split_ifs at h with hn
  obtain ⟨-, rfl⟩ := Prod.mk.inj (Option.some.inj h)
  rw [Buffer.set_bytes]
  have hcut := cstr_set_length ((((buffer.overwrite 0 bytes).set bytes.length 0).set
    (bytes.length-2) 10).bytes) (bytes.length-1) (by rw [Buffer.length_eq]; omega)
  exact ⟨hn.1, by omega⟩

end Decode

section Listing
variable (cfg : Config) (now : ℕ) (d : Driver)

theorem deref_text (p : Pointer) (text : List Byte) (h : d.deref p = some text) : p.text = text := by
  cases p with
  | junk => cases h
  | null => cases h
  | block id x =>
    simp only [Driver.deref] at h
    split_ifs at h
    exact Option.some.inj h

theorem activeLines_eq (slots : List MsgTimer) (lines : List (List Byte))
    (h : d.activeLines cfg now slots = some lines) :
    lines = (slots.filter fun s => s.Active).map fun s =>
      Driver.activeLine cfg now s s.message.text := by
  induction slots generalizing lines with
  | nil => exact (Option.some.inj h).symm
  | cons s slots ih =>
    simp only [Driver.activeLines] at h
    split_ifs at h with hs
    · obtain ⟨text, htext, h⟩ := Option.bind_eq_some_iff.mp h
      obtain ⟨rest, hrest, rfl⟩ := Option.map_eq_some_iff.mp h
      rw [List.filter_cons_of_pos (by simpa [isSome_function] using hs), List.map_cons,
        ← ih rest hrest, deref_text d _ text htext]
    · rw [List.filter_cons_of_neg (by simpa [isSome_function] using hs)]
      exact ih lines h

theorem activeLine_length (s : MsgTimer) :
    (Driver.activeLine cfg now s s.message.text).length = lineLength cfg now s := by
  have h1 : (ascii " ").length = 1 := rfl
  have h2 : (ascii "\n").length = 1 := rfl
  simp only [Driver.activeLine, lineLength, List.length_append, h1, h2]
  omega

theorem activeLines_length (slots : List MsgTimer) (lines : List (List Byte))
    (h : d.activeLines cfg now slots = some lines) :
    lines.flatten.length = ((slots.filter fun s => s.Active).map (lineLength cfg now)).sum := by
  rw [activeLines_eq cfg now d slots lines h, List.length_flatten, List.map_map]
  congr 1
  apply List.map_congr_left
  intro s _
  exact activeLine_length cfg now s

theorem activeLines_ne_nil (slots : List MsgTimer) (lines : List (List Byte))
    (h : d.activeLines cfg now slots = some lines) : lines ≠ [] ↔ ∃ s ∈ slots, s.Active := by
  rw [activeLines_eq cfg now d slots lines h, ne_eq, List.map_eq_nil_iff, List.filter_eq_nil_iff]
  simp

theorem lineLength_le (s : MsgTimer) : lineLength cfg now s ≤ s.message.text.length + 12 := by
  have hlt : Driver.remaining cfg now s < 2^31 :=
    max_lt (BitVec.toInt_lt (x := _)) (by norm_num)
  have hpos : ¬ Driver.remaining cfg now s < 0 := not_lt.mpr (le_max_right _ _)
  have hdigits := decimal_length_le (Driver.remaining cfg now s).toNat 10 (by decide) (by omega)
  rw [lineLength, decimalInt, if_neg hpos]
  omega

/-- The flag, the newline and the NUL that `timer_read` stores over the end of the listing lie
in the `strlen(message) + 20` bytes for each timer that were allocated. -/
theorem splice_inside (slots : List MsgTimer) (lines : List (List Byte))
    (h : d.activeLines cfg now slots = some lines) (hne : lines ≠ []) :
    lines.flatten.length + 1 <
      ((slots.filter fun s => s.Active).map fun s => s.message.text.length + 20).sum := by
  rw [activeLines_length cfg now d slots lines h]
  have hactive : 0 < (slots.filter fun s => s.Active).length := by
    rw [activeLines_eq cfg now d slots lines h, ne_eq, List.map_eq_nil_iff] at hne
    exact List.length_pos_of_ne_nil hne
  have hsum : ((slots.filter fun s => s.Active).map fun s => lineLength cfg now s + 8).sum ≤
      ((slots.filter fun s => s.Active).map fun s => s.message.text.length + 20).sum := by
    apply List.sum_le_sum
    intro s _
    have := lineLength_le cfg now s
    omega
  rw [List.sum_map_add] at hsum
  simp only [List.map_const', List.sum_replicate, smul_eq_mul] at hsum
  omega

/-- A listing ends with a newline. -/
theorem activeLines_end (slots : List MsgTimer) (lines : List (List Byte))
    (h : d.activeLines cfg now slots = some lines) (hne : lines ≠ []) :
    ∃ text, lines.flatten = text ++ [10] := by
  obtain ⟨front, last, rfl⟩ := List.eq_nil_or_concat lines |>.resolve_left hne
  have hlast : last ∈ (slots.filter fun s => s.Active).map fun s =>
      Driver.activeLine cfg now s s.message.text := by
    rw [← activeLines_eq cfg now d slots _ h]
    simp
  obtain ⟨s, -, rfl⟩ := List.mem_map.mp hlast
  refine ⟨front.flatten ++ (s.message.text ++ ascii " " ++
    decimalInt (Driver.remaining cfg now s)), ?_⟩
  have hn : ascii "\n" = [10] := rfl
  simp only [List.concat_eq_append, List.flatten_append, List.flatten_singleton, Driver.activeLine,
    hn, List.append_assoc]

end Listing

/-- No message of an active slot holds a NUL. -/
def NoZero (d : Driver) : Prop :=
  ∀ t i s, d.slot t i = some s → s.Active → 0 ∉ s.message.text

section Zero
variable (cfg : Config) (now : ℕ) (d d' : Driver)

theorem requestOf_set_zero (buf : UserBuf) (seconds : ℤ) (m : List Byte)
    (h : requestOf buf = .set seconds m) : 0 ∉ m := by
  have hcontrol (input : List Byte) : controlRequest input ≠ .set seconds m := by
    unfold controlRequest
    split_ifs
    · split
      · exact fun h => by cases h
      · split <;> exact fun h => by cases h
    · exact fun h => by cases h
  unfold requestOf at h
  split_ifs at h
  · exact absurd h (hcontrol _)
  · unfold timerRequest at h
    split at h
    · cases h
    · split at h
      · cases h
      · rename_i rest hrest
        obtain ⟨-, rfl⟩ := Request.set.inj h
        -- the message is a part of the string in `kbuf`
        intro hz
        exact zero_not_mem_cstr _
          (strsep_snd_subset 32 _ rest hrest (strsep_fst_subset 10 rest hz))

theorem effect_noZero (alloc : Bool) (req : Request) (r : ℤ) (h : NoZero d)
    (hreq : ∀ seconds m, req = .set seconds m → 0 ∉ m)
    (he : Effect cfg now d alloc req d' r) : NoZero d' := by
  cases he with
  | malformed e => exact h
  | noTable n ha hsize => exact h
  | newTable n k ha hk hsize =>
    intro t i s hs hact
    rcases withTable_slot d n k t i s hs with ⟨-, -, rfl⟩ | ⟨-, hold⟩
    · exact absurd hact freshSlot_idle.1
    · exact h t i s hold hact
  | full seconds m hf => exact h
  | unfilled seconds m t i s ha hf hc =>
    intro t' i' s' hs' hact
    rcases stored_cases d _ t i _ (stores_unfilled d t i s m hc).slot t' i' s' hs'
      with ⟨-, rfl⟩ | ⟨-, hold⟩
    · exact List.not_mem_nil
    · exact h t' i' s' hold hact
  | filled seconds m t i s r ha hf hc hr =>
    intro t' i' s' hs' hact
    rcases stored_cases d _ t i _ (stores_filled cfg now d t i s m hc seconds).slot t' i' s' hs'
      with ⟨-, rfl⟩ | ⟨-, hold⟩
    · exact hreq seconds m rfl
    · exact h t' i' s' hold hact

theorem step_noZero (s s' : State) (e : Event) (h : NoZero s.driver)
    (hs : step cfg s e = some s') : NoZero s'.driver := by
  rcases step_cases cfg s s' e hs with
    ⟨ticks, -, heq⟩ | ⟨buf, alloc, r, -, he⟩ | ⟨t, i, x, -, -, -, he⟩
  · rw [heq]
    exact h
  · exact effect_noZero cfg s.now _ _ alloc _ _ h (requestOf_set_zero buf) he
  · obtain ⟨x, -, -, hslots, -⟩ := expire_cases _ _ t i he
    intro t' i' s' hs' hact
    rcases stored_cases _ _ t i _ hslots t' i' s' hs' with ⟨-, rfl⟩ | ⟨-, hold⟩
    · cases hact
    · exact h t' i' s' hold hact

theorem noZero_reach (load : ℕ) (alloc : Bool) (s : State)
    (h : Reach (step cfg) (fun _ _ => True) (loaded load alloc) s) : NoZero s.driver := by
  refine reach_invariant (I := fun s => NoZero s.driver)
    (fun s e t hi _ hs => step_noZero cfg s t e hi hs) h ?_
  intro t i s hs hact
  exact absurd hact (init_idle alloc t i s hs)

end Zero

/-- What a fitting listing looks like to the client: the lines without their last newline, then
the flag and a newline. -/
structure Shown (cfg : Config) (now : ℕ) (d : Driver) (slots : List MsgTimer)
    (lines : List (List Byte)) (text : List Byte) (flag : Byte) : Prop where
  current : d.current = some slots
  active : d.activeLines cfg now slots = some lines
  listing : lines.flatten = text ++ [10]
  zero : 0 ∉ text
  length : text.length+2 < 128
  room : d.checkForRoom = some flag
  read (alloc' : Bool) : clientRead cfg now d true alloc' =
    some ⟨text ++ [flag,10], (text.length+2 : ℕ), text.length+2⟩

section Fits
variable (cfg : Config) (now : ℕ) (d : Driver)

theorem listing_zero (hz : NoZero d) (slots : List MsgTimer) (lines : List (List Byte))
    (hcur : d.current = some slots) (h : d.activeLines cfg now slots = some lines) :
    0 ∉ lines.flatten := by
  intro hmem
  rw [activeLines_eq cfg now d slots lines h] at hmem
  obtain ⟨line, hline, h0⟩ := List.mem_flatten.mp hmem
  obtain ⟨s, hs, rfl⟩ := List.mem_map.mp hline
  obtain ⟨hs, ha⟩ := List.mem_filter.mp hs
  obtain ⟨t, i, -, -, hslot⟩ := current_slot d slots hcur s hs
  have hnum := not_mem_decimalInt (Driver.remaining cfg now s) 0 (by decide) (by decide)
  have hs : 0 ∉ ascii " " := by decide
  have hn : 0 ∉ ascii "\n" := by decide
  simp only [Driver.activeLine, List.mem_append] at h0
  rcases h0 with ((h0 | h0) | h0) | h0
  · exact hz t i s hslot (of_decide_eq_true ha) h0
  · exact hs h0
  · exact hnum h0
  · exact hn h0

theorem fits_shown (h : Inv d) (hz : NoZero d) (hf : FitsRead cfg now d) :
    ∃ slots lines text flag, Shown cfg now d slots lines text flag := by
  obtain ⟨slots, hcur, hmessage, ⟨u, hu, hua⟩, hsum⟩ := hf
  -- no message of an active slot is NULL or freed, so the loops print every line
  have hdef : d.activeLines cfg now slots ≠ none := by
    rw [activeLines_defined_iff]
    intro s hs ha
    obtain ⟨t, i, -, -, hslot⟩ := current_slot d slots hcur s hs
    rcases h.message t i s hslot ha with hnull | ⟨id, text, hb, hlive, -⟩
    · exact absurd hnull (hmessage s hs ha)
    · rw [hb, Driver.deref, if_neg hlive]
      simp
  obtain ⟨lines, hlines⟩ := Option.ne_none_iff_exists'.mp hdef
  have hne := (activeLines_ne_nil cfg now d slots lines hlines).mpr ⟨u, hu, hua⟩
  obtain ⟨text, htext⟩ := activeLines_end cfg now d slots lines hlines hne
  have hlen := activeLines_length cfg now d slots lines hlines
  have hflat := listing_zero cfg now d hz slots lines hcur hlines
  rw [htext, List.mem_append, not_or] at hflat
  rw [htext, List.length_append, List.length_singleton] at hlen
  obtain ⟨flag, hflag⟩ : ∃ flag, d.checkForRoom = some flag := by
    rw [Driver.checkForRoom, hcur]
    exact ⟨_, rfl⟩
  refine ⟨slots, lines, text, flag, hcur, hlines, htext, hflat.1, by omega, hflag, ?_⟩
  -- the flag is stored over the terminator, and all of it fits the 127 bytes asked for
  intro alloc'
  obtain ⟨t, -, ht, -⟩ := current_slot d slots hcur u hu
  have hread : d.readText cfg now true alloc' = some (text ++ [flag,10]) := by
    have hz' : 0 ∉ text ++ [10] := by
      rw [List.mem_append, not_or]
      exact hflat
    rw [Driver.readText, Driver.getActiveTimers, hcur, Option.bind_some, hlines, Option.map_some,
      if_neg (by simp [hne]), Option.bind_some, hflag, Option.bind_some, htext]
    simp only [cstr_of_not_mem _ hz', List.dropLast_concat]
  have hl : (text ++ [flag,10]).length = text.length+2 := by simp
  have hmin : min 127 (text.length+2) = text.length+2 := by omega
  rw [clientRead, Driver.timerRead, if_neg (by rw [ht]; simp), hread, Option.map_some]
  simp only [hl, if_neg (show ¬ text.length+2 ≤ 0 by omega), if_true, List.drop_zero, Nat.sub_zero,
    Nat.zero_add, hmin]
  rw [List.take_of_length_le (le_of_eq hl)]

end Fits

/-- The client recovers what the driver shows: the read and both decodings stay in their
buffers, the flag is that of `check_for_room`, and what is left in `buffer` are the lines of the
active timers. -/
def Recovers (cfg : Config) (now : ℕ) (d : Driver) (buffer : Buffer 128) (alloc alloc' : Bool) :
    Prop :=
  ∃ r flag buffer' slots lines, clientRead cfg now d alloc alloc' = some r ∧
    listDecode buffer r.bytes = some (flag, buffer') ∧
    setDecode buffer r.bytes = some (flag, buffer') ∧ d.checkForRoom = some flag ∧
    d.current = some slots ∧ d.activeLines cfg now slots = some lines ∧
    cstr buffer'.bytes = lines.flatten

section Recover
variable (cfg : Config) (now : ℕ) (d : Driver) (buffer : Buffer 128) (alloc alloc' : Bool)

theorem recovers_of_fits (h : Inv d) (hz : NoZero d) (hf : FitsRead cfg now d) :
    Recovers cfg now d buffer true alloc' := by
  obtain ⟨slots, lines, text, flag, hs⟩ := fits_shown cfg now d h hz hf
  obtain ⟨buffer', hdecode, hcstr⟩ := listDecode_whole buffer text flag hs.zero hs.length
  exact ⟨_, flag, buffer', slots, lines, hs.read alloc', hdecode,
    (setDecode_eq _ _).trans hdecode, hs.room, hs.current, hs.active, hcstr.trans hs.listing.symm⟩

/-- The client gets a single NUL, or the first 127 bytes of the driver's text. -/
theorem clientRead_bytes (r : ReadResult) (h : clientRead cfg now d alloc alloc' = some r) :
    r.bytes = [0] ∨
      ∃ message, d.readText cfg now alloc alloc' = some message ∧ r.bytes = message.take 127 := by
  unfold clientRead Driver.timerRead at h
  by_cases ht : d.gTimers = none
  · rw [if_pos ht] at h
    obtain rfl := Option.some.inj h
    exact Or.inl rfl
  · rw [if_neg ht] at h
    obtain ⟨message, hm, hr⟩ := Option.map_eq_some_iff.mp h
    refine Or.inr ⟨message, hm, ?_⟩
    simp only [List.drop_zero, Nat.sub_zero, if_true] at hr
    rw [← hr]
    split_ifs with hl
    · rw [List.eq_nil_of_length_eq_zero (Nat.le_zero.mp hl)]
      rfl
    · rw [List.take_eq_take_iff]
      omega

/-- Where the listing's block was not allocated, at most the flag comes. -/
theorem clientRead_unlisted (r : ReadResult) (h : clientRead cfg now d false alloc' = some r) :
    r.bytes.length ≤ 1 := by
  rcases clientRead_bytes cfg now d false alloc' r h with hnul | ⟨message, hm, hr⟩
  · rw [hnul, List.length_singleton]
  · obtain ⟨listing, hl, hm⟩ := Option.bind_eq_some_iff.mp hm
    obtain ⟨slots, -, hl⟩ := Option.bind_eq_some_iff.mp hl
    obtain ⟨lines, -, rfl⟩ := Option.map_eq_some_iff.mp hl
    obtain ⟨flag, -, hm⟩ := Option.bind_eq_some_iff.mp hm
    rw [if_pos (Or.inr (by simp))] at hm
    split_ifs at hm
    obtain rfl := Option.some.inj hm
    rw [hr, List.length_take, List.length_singleton]
    omega

theorem fits_of_recovers (h : Recovers cfg now d buffer alloc alloc') :
    alloc = true ∧ FitsRead cfg now d := by
  obtain ⟨r, flag, buffer', slots, lines, hread, hdecode, -, hroom, hcur, hlines, hcstr⟩ := h
  obtain ⟨htwo, hlt⟩ := listDecode_length buffer r.bytes flag buffer' hdecode
  have hlen := activeLines_length cfg now d slots lines hlines
  rcases clientRead_bytes cfg now d alloc alloc' r hread with hnul | ⟨message, hm, hr⟩
  · -- a single NUL has no second byte from the end
    rw [hnul, List.length_singleton] at htwo
    omega
  · have hbytes : r.bytes.length = min 127 message.length := by rw [hr, List.length_take]
    simp only [Driver.readText, Driver.getActiveTimers, hcur, Option.bind_some, hlines,
      Option.map_some, hroom] at hm
    by_cases hnil : lines = [] ∨ ¬ alloc = true
    · -- without a listing only the flag is sent
      simp only [if_pos hnil] at hm
      split_ifs at hm
      obtain rfl := Option.some.inj hm
      rw [List.length_singleton] at hbytes
      omega
    · simp only [not_or, not_not] at hnil
      refine ⟨hnil.2, slots, hcur, ?_, ?_, ?_⟩
      · intro s hs ha hnull
        apply (activeLines_defined_iff cfg now d slots).mp (by rw [hlines]; simp) s hs ha
        rw [hnull]
        rfl
      · exact (activeLines_ne_nil cfg now d slots lines hlines).mp hnil.1
      · rw [← hlen, ← hcstr]
        omega

end Recover

/-- The client recovers flag and listing exactly when the listing's block is allocated, some
timer is active, every active timer has its message, and the lines have at most 126 bytes. -/
theorem client_recovers_iff (cfg : Config) (load : ℕ) (loadAlloc : Bool) (s : State)
    (h : Reach (step cfg) (fun _ _ => True) (loaded load loadAlloc) s) (buffer : Buffer 128)
    (alloc alloc' : Bool) :
    Recovers cfg s.now s.driver buffer alloc alloc' ↔
      alloc = true ∧ FitsRead cfg s.now s.driver := by
  constructor
  · exact fits_of_recovers cfg s.now s.driver buffer alloc alloc'
  · rintro ⟨rfl, hf⟩
    exact recovers_of_fits cfg s.now s.driver buffer alloc' (inv_reach cfg load loadAlloc s h)
      (noZero_reach cfg load loadAlloc s h) hf

def fitsCheck (cfg : Config) (now : ℕ) (d : Driver) : Bool :=
  d.current.any fun slots => slots.all (fun s => !decide s.Active || decide (s.message ≠ .null)) &&
    slots.any (fun s => s.Active) &&
    decide (((slots.filter fun s => s.Active).map (lineLength cfg now)).sum ≤ 126)

theorem fits_of_check (cfg : Config) (now : ℕ) (d : Driver) (h : fitsCheck cfg now d = true) :
    FitsRead cfg now d := by
  obtain ⟨slots, hcur, h⟩ := (Option.any_eq_true _ _).mp h
  simp only [Bool.and_eq_true, List.all_eq_true, List.any_eq_true, Bool.or_eq_true,
    Bool.not_eq_true', decide_eq_true_eq, decide_eq_false_iff_not] at h
  obtain ⟨⟨hall, hany⟩, hsum⟩ := h
  exact ⟨slots, hcur, fun s hs ha => (hall s hs).resolve_left fun hn => hn ha, hany, hsum⟩

set_option maxRecDepth 8192 in
/-- Two timers, a second after they were set. -/
theorem client_recovers_iff_run : ∃ s,
    Reach (step sampleConfig) (fun _ _ => True) (loaded 0 true) s ∧
      s.driver.checkForRoom = some 48 ∧
      Recovers sampleConfig s.now s.driver (Buffer.zero 128) true true := by
  obtain ⟨s, hs, hp⟩ := exists_reach_of_free_run (step sampleConfig) (loaded 0 true)
    [sampleWrite "^COUNT=2\n" true, sampleWrite "300 dakota\n" true,
      sampleWrite "5 billy\n" true, .tick 250]
    (fun s => s.driver.checkForRoom = some 48 ∧ fitsCheck sampleConfig s.now s.driver = true)
    (by decide)
  obtain ⟨hroom, hfits⟩ := of_decide_eq_true hp
  exact ⟨s, hs, hroom, (client_recovers_iff sampleConfig 0 true s hs _ true true).mpr
    ⟨rfl, fits_of_check _ _ _ hfits⟩⟩

/-- Without an active timer the client reads one byte, and looks for the flag in front of it. -/
theorem empty_table_not_recovered : ¬ ∀ (cfg : Config) (load : ℕ) (loadAlloc : Bool) (s : State),
    Reach (step cfg) (fun _ _ => True) (loaded load loadAlloc) s → ∀ buffer : Buffer 128,
      Recovers cfg s.now s.driver buffer true true := by
  intro hall
  have hfits := (fits_of_recovers _ _ _ _ _ _ (hall sampleConfig 0 true (loaded 0 true)
    (reach_refl _) (Buffer.zero 128))).2
  obtain ⟨slots, hcur, -, ⟨s, hs, ha⟩, -⟩ := hfits
  have hslots : slots = [freshSlot] := (Option.some.inj hcur).symm
  rw [hslots, List.mem_singleton] at hs
  rw [hs] at ha
  exact freshSlot_idle.1 ha

section Passes
variable (cfg : Config) (now : ℕ) (d : Driver)

/-- Reads of one open file, with mapped buffers and allocations that succeed, while the driver and
the clock stand still. A read that does not come back is shown as an empty one. -/
def reader : ChunkedReads.Reader Unit ℕ Byte := fun _ count pos =>
  ((d.timerRead cfg now true count pos true true).map fun r => ((), r.bytes, r.pos)).getD
    ((), [], pos)

theorem reader_rewinds (text : List Byte) (htable : d.gTimers ≠ none)
    (htext : d.readText cfg now true true = some text) :
    ChunkedReads.Rewinds (reader cfg now d) (fun _ => True) (fun _ => True) id text := by
  have hread (count pos : ℕ) : reader cfg now d () count pos =
      if text.length ≤ pos then ((), [], 0)
      else ((), (text.drop pos).take (min count (text.length-pos)),
        pos + min count (text.length-pos)) := by
    unfold reader Driver.timerRead
    rw [if_neg htable, htext]
    simp only [Option.map_some, if_true]
    split_ifs <;> rfl
  refine ⟨fun _ _ _ _ _ => trivial, fun _ count pos _ _ hp => ?_, fun _ count pos _ _ hp => ?_⟩
  · rw [hread, if_neg (not_le.mpr hp)]
    refine Prod.ext ?_ rfl
    show (text.drop pos).take _ = (text.drop pos).take count
    rw [← List.length_drop, ← List.take_take, List.take_of_length_le (le_refl _)]
  · rw [hread, if_pos hp]

/-- Without a table every read returns one NUL. -/
theorem reader_nul (htable : d.gTimers = none) (count pos : ℕ) :
    reader cfg now d () count pos = ((), [0], pos) := by
  unfold reader Driver.timerRead
  rw [if_pos htable]
  rfl

theorem passes_nul (htable : d.gTimers = none) (sizes : ℕ → ℕ) (n : ℕ) :
    ChunkedReads.passes (reader cfg now d) () sizes n = 0 ∧
      ChunkedReads.delivered (reader cfg now d) () sizes n = List.replicate n 0 := by
  have hchunk (i : ℕ) : ChunkedReads.chunk (reader cfg now d) () sizes i = [0] := by
    unfold ChunkedReads.chunk
    rw [reader_nul cfg now d htable]
  induction n with
  | zero => exact ⟨rfl, rfl⟩
  | succ n ih =>
    constructor
    · rw [ChunkedReads.passes_succ, ih.1, hchunk]
      rfl
    · rw [ChunkedReads.delivered_succ, ih.2, hchunk, List.replicate_succ']

end Passes

end DevKota.Lab2
